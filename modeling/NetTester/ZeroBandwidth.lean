import NetTester.Executable

namespace NetTester

/-- The least amount of which a byte is left. -/
def SizeUnit.leastAmount : SizeUnit → Nat
  | .byte => 1
  | .b | .bit => 8

/-- A zero, fewer bits than a byte has, or a product that wraps to one of these. -/
def SizeText.Vanishes (t : SizeText) : Prop :=
  min t.count (2 ^ 63 - 1) * t.factor ^ t.rank % 2 ^ 64 < t.unit.leastAmount

/-- The sizes that are given for a bandwidth. -/
def BandwidthText (given : List (OptionName × List Char)) (t : SizeText) : Prop :=
  (.txBandwidth, t.text) ∈ given ∨ (.rxBandwidth, t.text) ∈ given

variable {options : ProgramOptions} {failure : String} {text : List Char} {size : Size}
  {given : List (OptionName × List Char)} {args : VariablesMap}

theorem SizeUnit.bytes_eq_zero (unit : SizeUnit) (amount : Nat) :
    unit.bytes amount = 0 ↔ amount < unit.leastAmount := by
  cases unit <;> simp only [SizeUnit.bytes, SizeUnit.leastAmount] <;> omega

/-- The text of an option that is a size is that of a size, with nothing before it or behind. -/
theorem lexicalCast_size (h : lexicalCast failure extractSize text = .ok size) :
    ∃ t : SizeText, text = t.text ∧ (size.value = 0 ↔ t.Vanishes) := by
  unfold lexicalCast at h
  split at h
  next => cases h
  next solid =>
  obtain ⟨result, read, h⟩ := bind_eq_ok.mp h
  split at h
  next value =>
    cases h
    obtain ⟨input, stream, rest⟩ := extractSize_ok read
    have blanks : input.blanks = [] := by
      cases hb : input.blanks with
      | nil => rfl
      | cons b bs =>
        have blank := input.blank b (hb ▸ List.mem_cons_self)
        rw [← stream, SizeInput.stream, hb] at solid
        exact absurd (by simp [blank]) solid
    refine ⟨input.text, ?_, ?_⟩
    · rw [← stream, SizeInput.stream, blanks, rest, List.append_nil, List.nil_append]
    · obtain ⟨value, read', amount⟩ := input.extractSize_stream
      rw [stream, rest, read] at read'
      cases read'
      rw [amount, SizeUnit.bytes_eq_zero]
      rfl
  next => cases h

/-- A bandwidth is zero if the text that is given for it comes to nothing. -/
theorem bandwidth_eq_zero {name : OptionName} {stored : Option Size}
    (present : ∀ text, (name, text) ∈ given → ∃ value,
      lexicalCast (options.invalidOptionValue name text) extractSize text = .ok value ∧
        stored = some value)
    (missing : (∀ text, (name, text) ∉ given) → stored = none) :
    (stored.getD defaultBandwidth).value = 0 ↔ ∃ t : SizeText, (name, t.text) ∈ given ∧
      t.Vanishes := by
  constructor
  · intro zero
    by_contra never
    have absent : ∀ text, (name, text) ∉ given := by
      intro text member
      obtain ⟨value, cast, rfl⟩ := present text member
      obtain ⟨t, rfl, vanishes⟩ := lexicalCast_size cast
      exact never ⟨t, member, vanishes.mp zero⟩
    rw [missing absent] at zero
    exact absurd zero (by decide)
  · rintro ⟨t, member, vanishes⟩
    obtain ⟨value, cast, rfl⟩ := present t.text member
    obtain ⟨t', same, zero⟩ := lexicalCast_size cast
    obtain rfl := SizeText.text_injective same
    exact zero.mpr vanishes

theorem store_bandwidths (h : options.store given = .ok args) :
    min args.rxBandwidth.value args.txBandwidth.value = 0 ↔
      ∃ t, BandwidthText given t ∧ t.Vanishes := by
  obtain ⟨stored', stored, rfl⟩ := map_eq_ok.mp h
  obtain ⟨sent, unsent⟩ := storeOptions_eq .txBandwidth stored rfl
  obtain ⟨received, unreceived⟩ := storeOptions_eq .rxBandwidth stored rfl
  rw [Nat.min_eq_zero_iff]
  refine (or_congr (bandwidth_eq_zero received unreceived)
    (bandwidth_eq_zero sent unsent)).trans ?_
  unfold BandwidthText
  constructor
  · rintro (⟨t, member, vanishes⟩ | ⟨t, member, vanishes⟩)
    · exact ⟨t, .inr member, vanishes⟩
    · exact ⟨t, .inl member, vanishes⟩
  · rintro ⟨t, member | member, vanishes⟩
    · exact .inr ⟨t, member, vanishes⟩
    · exact .inl ⟨t, member, vanishes⟩

/-- The bandwidth that the duration of a test is divided by is not zero as long as no size that is
given for a bandwidth comes to nothing. -/
theorem estimateTestDuration_divisor (c : SessionConfiguration) {line : List Char}
    {configuration : SessionConfiguration} (h : fillLine options c line = .ok configuration) :
    min configuration.receiveBandwidth.value configuration.sendBandwidth.value ≠ 0 ↔
      ∀ given, options.parse (lineArguments line) = .ok given →
        ∀ t, BandwidthText given t → ¬t.Vanishes := by
  obtain ⟨given, parsed, h⟩ := bind_eq_ok.mp h
  obtain ⟨args, stored, h⟩ := bind_eq_ok.mp h
  obtain ⟨_, _, _, _, mode, rfl⟩ := fillConfiguration_ok h
  have zero : min args.rxBandwidth.value args.txBandwidth.value = 0 ↔ _ := store_bandwidths stored
  simp only [parsed, Except.ok.injEq, forall_eq', ne_eq, notify]
  rw [zero]
  simp only [not_exists, not_and]

/-- An option that is given as `--name=value`. -/
def longOption (argument : List Char) : Option (OptionName × List Char) :=
  match argument with
  | '-' :: '-' :: rest =>
    (OptionName.all.find? fun name => name.text = rest.takeWhile (· != '=')).map fun name =>
      (name, (rest.dropWhile (· != '=')).drop 1)
  | _ => none

/-- Options that are all given so. -/
def longOptions : ProgramOptions where
  parse argv := .ok (argv.filterMap longOption)
  multipleOccurrences name := "option '--" ++ String.ofList name.text ++
    "' cannot be specified more than once"
  invalidOptionValue name s := "the argument ('" ++ String.ofList s ++ "') for option '--" ++
    String.ofList name.text ++ "' is invalid"
  uint64 s := some (decimalValue s % 2 ^ 64)
  timeDuration _ := none

def bandwidthLine (amount : List Char) : List Char :=
  [' '].intercalate ["--connect=a:1".toList, "--size=1B".toList,
    "--tx-bandwidth=".toList ++ amount]

def bandwidthConfiguration (bandwidth : Size) : SessionConfiguration :=
  { defaultConfiguration "a:1" ⟨1, .iec, by decide⟩ with sendBandwidth := bandwidth }

theorem lineArguments_bandwidthLine {amount : List Char} (solid : ∀ c ∈ amount, isSpace c = false) :
    lineArguments (bandwidthLine amount) = ["enyx-net-bench".toList, "--connect=a:1".toList,
      "--size=1B".toList, "--tx-bandwidth=".toList ++ amount] := by
  rw [lineArguments, bandwidthLine, words_intercalate]
  have name : ∀ c ∈ "--tx-bandwidth=".toList, isSpace c = false := by simp [isSpace]
  refine List.forall_mem_cons.mpr ⟨⟨by simp, by simp [isSpace]⟩,
    List.forall_mem_cons.mpr ⟨⟨by simp, by simp [isSpace]⟩,
      List.forall_mem_cons.mpr ⟨⟨by simp, fun c member => ?_⟩, by simp⟩⟩⟩
  exact (List.mem_append.mp member).elim (name c) (solid c)

theorem fillLine_eight_bits :
    fillLine longOptions valueInitialized (bandwidthLine ['8', 'b', 'i', 't']) =
      .ok (bandwidthConfiguration ⟨1, .iec, by decide⟩) := by
  rw [fillLine, lineArguments_bandwidthLine (by simp [isSpace])]
  decide +kernel

theorem divisor_eight_bits :
    min (bandwidthConfiguration ⟨1, .iec, by decide⟩).receiveBandwidth.value 1 ≠ 0 ↔
      ∀ given,
        longOptions.parse (lineArguments (bandwidthLine ['8', 'b', 'i', 't'])) = .ok given →
          ∀ t, BandwidthText given t → ¬t.Vanishes :=
  estimateTestDuration_divisor valueInitialized fillLine_eight_bits

/-- A line with `--tx-bandwidth=7bit` is accepted, and there is no duration for its test. -/
theorem divisor_seven_bits : ∃ configuration,
    fillLine longOptions valueInitialized (bandwidthLine ['7', 'b', 'i', 't']) =
      .ok configuration ∧
    min configuration.receiveBandwidth.value configuration.sendBandwidth.value = 0 ∧
    Session.estimateTestDuration configuration = none := by
  refine ⟨bandwidthConfiguration ⟨0, .iec, by decide⟩, ?_, by decide, by decide⟩
  rw [fillLine, lineArguments_bandwidthLine (by simp [isSpace])]
  decide +kernel

end NetTester

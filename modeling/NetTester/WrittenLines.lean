import NetTester.CommandLine

namespace NetTester

/-- `operator<<` of the enumerations. -/
def insertVerify : Verify → List Char
  | .none => "none".toList
  | .first => "first".toList
  | .all => "all".toList

def insertDirection : Direction → List Char
  | .rx => "rx".toList
  | .tx => "tx".toList
  | .both => "both".toList

def insertShutdownPolicy : ShutdownPolicy → List Char
  | .waitForPeer => "wait_for_peer".toList
  | .sendComplete => "send_complete".toList
  | .receiveComplete => "receive_complete".toList

def insertProtocol : Protocol → List Char
  | .tcp => "tcp".toList
  | .udp => "udp".toList

/-- A text that is a word of its own. -/
def IsWord (text : List Char) : Prop := text ≠ [] ∧ ∀ c ∈ text, isSpace c = false

theorem isWord_of_all {text : List Char} (nonempty : text.isEmpty = false)
    (solid : text.all (!isSpace ·) = true) : IsWord text :=
  ⟨by simpa using nonempty, by simpa using solid⟩

/-- What is read of an amount that is given in bytes: they are read as a `long long`. -/
def Size.inBytes (size : Size) : Size where
  value := min size.value (2 ^ 63 - 1)
  unitSystem := .iec
  bounded := (min_le_left _ _).trans_lt size.bounded

/-- The digits of an amount of bytes. -/
def Size.digits (size : Size) : SizeText where
  digits := Nat.toDigits 10 size.value
  nonempty := Nat.toDigits_ne_nil
  decimal := isDigit_of_mem_toDigits
  scale := none
  unit := .byte
  allowed := by simp

def SessionConfiguration.inBytes (c : SessionConfiguration) : SessionConfiguration :=
  { c with
    sendBandwidth := c.sendBandwidth.inBytes
    receiveBandwidth := c.receiveBandwidth.inBytes
    windows := c.windows.inBytes
    size := c.size.inBytes
    packetSize := ⟨c.packetSize.low.inBytes, c.packetSize.high.inBytes⟩ }

/-- The text of each option of a configuration, as far as it has one. -/
def writtenText (writeDuration : Int → List Char) (c : SessionConfiguration) :
    OptionName → Option (List Char)
  | .connect => if c.mode = .client then some c.endpoint.toList else none
  | .listen => if c.mode = .client then none else some c.endpoint.toList
  | .size => some c.size.digits.text
  | .protocol => some (insertProtocol c.protocol)
  | .txBandwidth => some c.sendBandwidth.digits.text
  | .rxBandwidth => some c.receiveBandwidth.digits.text
  | .bandwidthSamplingFrequency => some (Nat.toDigits 10 c.bandwidthSamplingFrequency)
  | .verify => some (insertVerify c.verify)
  | .mode => some (insertDirection c.direction)
  | .windows => some c.windows.digits.text
  | .durationMargin => c.durationMargin.map writeDuration
  | .maxDatagramSize => some (insertRange (·.digits.text) c.packetSize)
  | .shutdownPolicy => some (insertShutdownPolicy c.shutdownPolicy)

/-- An option that is given as `--name=text`. -/
def longArgument (given : OptionName × List Char) : List Char :=
  "--".toList ++ given.1.text ++ '=' :: given.2

def writtenOptions (writeDuration : Int → List Char) (c : SessionConfiguration) :
    List (OptionName × List Char) :=
  OptionName.all.filterMap fun name => (writtenText writeDuration c name).map (name, ·)

/-- The line of a configuration. -/
def writtenLine (writeDuration : Int → List Char) (c : SessionConfiguration) : List Char :=
  [' '].intercalate ((writtenOptions writeDuration c).map longArgument)

/-- A file with a line for each configuration. -/
def writtenFile (writeDuration : Int → List Char) (cs : List SessionConfiguration) : List Char :=
  (cs.map (writtenLine writeDuration)).flatMap (· ++ ['\n'])

/-- What the library does with options that are given so, and with digits. -/
structure ProgramOptions.Reads (options : ProgramOptions) : Prop where
  parse : ∀ given : List (OptionName × List Char), (∀ g ∈ given, g.2 ≠ []) →
    options.parse ("enyx-net-bench".toList :: given.map longArgument) = .ok given
  uint64 : ∀ n < 2 ^ 64, options.uint64 (Nat.toDigits 10 n) = some n

/-- A configuration whose options can be given on a line: its endpoint has to be a word. -/
structure Writable (options : ProgramOptions) (writeDuration : Int → List Char)
    (c : SessionConfiguration) : Prop where
  accepted : Accepted c
  endpoint : IsWord c.endpoint.toList
  frequency : c.bandwidthSamplingFrequency < 2 ^ 64
  margin : ∀ margin ∈ c.durationMargin, IsWord (writeDuration margin) ∧
    options.timeDuration (writeDuration margin) = some (some margin)

theorem Size.digits_isWord (size : Size) : IsWord size.digits.text :=
  ⟨fun empty => size.digits.nonempty (List.append_eq_nil_iff.mp empty).1, size.digits.solid⟩

theorem parseSize_digits (size : Size) : parseSize size.digits.text = .ok size.inBytes := by
  have iec : size.digits.In .iec := ⟨by simp [Size.digits], by simp [Size.digits]⟩
  have count : size.digits.count = size.value := decimalValue_toDigits _
  have value : parsedValue UnitSystem.iec.factor size.digits.captures = size.inBytes.value := by
    rw [parsedValue_text iec, count]
    change min size.value (2 ^ 63 - 1) * 1000 ^ 0 % 2 ^ 64 = min size.value (2 ^ 63 - 1)
    omega
  unfold parseSize
  rw [regexMatch_of_in (fun a => reads_regexIec size.digits.solid) iec]
  exact congrArg Except.ok (Size.ext value rfl)

section

variable {α : Type} {failure : String} {text : List Char}

/-- A word that is read whole is cast to what is read. -/
theorem lexicalCast_isWord {extract : List Char → Except String (Option (α × List Char))}
    {value : α} (isWord : IsWord text) (read : extract text = .ok (some (value, []))) :
    lexicalCast failure extract text = .ok value := by
  have head : ¬text.head?.any isSpace = true := by
    cases text with
    | nil => simp
    | cons c cs => simp [isWord.2 c List.mem_cons_self]
  rw [lexicalCast, if_neg head, read]
  rfl

theorem lexicalCast_name {names : List (List Char × α)} {error : String} {value : α}
    (isWord : IsWord text) (named : names.lookup text = some value) :
    lexicalCast failure (extractName names error) text = .ok value := by
  refine lexicalCast_isWord isWord ?_
  rw [extractName, token_word isWord.1 isWord.2]
  simp only [named]

theorem lexicalCast_digits (size : Size) :
    lexicalCast failure extractSize size.digits.text = .ok size.inBytes := by
  refine lexicalCast_isWord size.digits_isWord ?_
  rw [extractSize, token_word size.digits_isWord.1 size.digits_isWord.2]
  simp only [parseSize_digits size, Except.map]

end

theorem insertRange_isWord (range : Range Size) : IsWord (insertRange (·.digits.text) range) := by
  obtain ⟨nonempty, low⟩ := range.low.digits_isWord
  refine ⟨fun empty => nonempty (List.append_eq_nil_iff.mp empty).1, fun c member => ?_⟩
  rcases List.mem_append.mp member with first | second
  · exact low c first
  · split at second
    next =>
      rcases List.mem_cons.mp second with rfl | second
      · rfl
      · exact range.high.digits_isWord.2 c second
    next => cases second

theorem readSize_digits (old size : Size) : readSize old size.digits.text = .ok size.inBytes :=
  (readSize_eq old size.digits_isWord.1 size.digits_isWord.2).trans (parseSize_digits size)

theorem readBounds_insertRange (range : Range Size) :
    readBounds readSize .zero .zero (insertRange (·.digits.text) range) =
      .ok ⟨range.low.inBytes, range.high.inBytes⟩ := by
  have absent := range.low.digits.dash_not_mem
  unfold insertRange
  split
  next => rw [readBounds_cut absent, readSize_digits, Except.bind, readSize_digits, Except.map]
  next same =>
    rw [List.append_nil, readBounds_single absent, readSize_digits, Except.map, not_not.mp same]

theorem lexicalCast_insertRange {failure : String} (range : Range Size) :
    lexicalCast failure (fun s => (extractPacketSize s).map fun (range, rest) =>
        rest.map (range, ·)) (insertRange (·.digits.text) range) =
      .ok ⟨range.low.inBytes, range.high.inBytes⟩ := by
  have isWord := insertRange_isWord range
  have read := (extractPacketSize_eq_ok isWord.1 isWord.2).mpr
    ⟨readBounds_insertRange range, rfl⟩
  refine lexicalCast_isWord isWord ?_
  rw [read]
  rfl

theorem toDigits_isWord (n : Nat) : IsWord (Nat.toDigits 10 n) :=
  ⟨Nat.toDigits_ne_nil, fun c member => isSpace_of_isDigit (isDigit_of_mem_toDigits c member)⟩

/-- What is stored of a configuration when each of its options is given. -/
def SessionConfiguration.stored (c : SessionConfiguration) : ProgramOptions.Stored
  | .connect => if c.mode = .client then some c.endpoint else none
  | .listen => if c.mode = .client then none else some c.endpoint
  | .size => some c.size
  | .protocol => some c.protocol
  | .txBandwidth => some c.sendBandwidth
  | .rxBandwidth => some c.receiveBandwidth
  | .bandwidthSamplingFrequency => some c.bandwidthSamplingFrequency
  | .verify => some c.verify
  | .mode => some c.direction
  | .windows => some c.windows
  | .durationMargin => c.durationMargin.map some
  | .maxDatagramSize => some c.packetSize
  | .shutdownPolicy => some c.shutdownPolicy

/-- The options of a configuration, each of them given. -/
def SessionConfiguration.given (c : SessionConfiguration) : VariablesMap where
  connect := if c.mode = .client then some c.endpoint else none
  listen := if c.mode = .client then none else some c.endpoint
  size := some c.size
  protocol := c.protocol
  txBandwidth := c.sendBandwidth
  rxBandwidth := c.receiveBandwidth
  bandwidthSamplingFrequency := c.bandwidthSamplingFrequency
  verify := c.verify
  mode := c.direction
  windows := c.windows
  durationMargin := c.durationMargin
  maxDatagramSize := c.packetSize
  shutdownPolicy := c.shutdownPolicy

theorem applyDefaults_stored (c : SessionConfiguration) : applyDefaults c.stored = c.given := by
  have margin : (c.durationMargin.map some).getD none = c.durationMargin := by
    cases c.durationMargin <;> rfl
  unfold SessionConfiguration.given
  rw [← margin]
  rfl

theorem fillConfiguration_given {c : SessionConfiguration} (accepted : Accepted c)
    (previous : SessionConfiguration) : fillConfiguration previous c.given = .ok c := by
  obtain ⟨frequency, size, tx, rx⟩ := accepted_iff.mp accepted
  cases hm : c.mode <;> simp [fillConfiguration, notify, SessionConfiguration.given, frequency,
    size, tx, rx, hm] <;> cases c <;> simp_all

theorem Accepted.inBytes {c : SessionConfiguration} (accepted : Accepted c) :
    Accepted c.inBytes := by
  obtain ⟨frequency, size, policies⟩ := accepted_iff.mp accepted
  have positive : min c.size.value (2 ^ 63 - 1) ≠ 0 := by omega
  exact (accepted_iff (c := c.inBytes)).mpr ⟨frequency, positive, policies⟩

namespace Writable

variable {options : ProgramOptions} {writeDuration : Int → List Char} {c : SessionConfiguration}
  {name : OptionName}

theorem isWord (h : Writable options writeDuration c) {text : List Char}
    (written : writtenText writeDuration c name = some text) : IsWord text := by
  cases name with
  | connect | listen =>
    simp only [writtenText, Option.ite_none_left_eq_some, Option.ite_none_right_eq_some,
      Option.some.injEq] at written
    exact written.2 ▸ h.endpoint
  | size | txBandwidth | rxBandwidth | windows =>
    cases Option.some.inj written
    exact Size.digits_isWord _
  | protocol =>
    cases Option.some.inj written
    cases c.protocol <;> exact isWord_of_all rfl rfl
  | bandwidthSamplingFrequency =>
    cases Option.some.inj written
    exact toDigits_isWord _
  | verify =>
    cases Option.some.inj written
    cases c.verify <;> exact isWord_of_all rfl rfl
  | mode =>
    cases Option.some.inj written
    cases c.direction <;> exact isWord_of_all rfl rfl
  | durationMargin =>
    obtain ⟨margin, found, rfl⟩ := Option.map_eq_some_iff.mp written
    exact (h.margin margin found).1
  | maxDatagramSize =>
    rw [← Option.some.inj written]
    exact insertRange_isWord c.packetSize
  | shutdownPolicy =>
    cases Option.some.inj written
    cases c.shutdownPolicy <;> exact isWord_of_all rfl rfl

/-- Each option is read as what the configuration has of it. -/
theorem valid (h : Writable options writeDuration c) (reads : options.Reads) {text : List Char}
    (written : writtenText writeDuration c name = some text) :
    ∃ value, options.validate name text = .ok value ∧ c.inBytes.stored name = some value := by
  have isWord := h.isWord written
  cases name with
  | connect =>
    simp only [writtenText, Option.ite_none_right_eq_some, Option.some.injEq] at written
    obtain ⟨client, rfl⟩ := written
    exact ⟨c.endpoint, congrArg Except.ok String.ofList_toList, if_pos client⟩
  | listen =>
    simp only [writtenText, Option.ite_none_left_eq_some, Option.some.injEq] at written
    obtain ⟨server, rfl⟩ := written
    exact ⟨c.endpoint, congrArg Except.ok String.ofList_toList, if_neg server⟩
  | size | txBandwidth | rxBandwidth | windows =>
    cases Option.some.inj written
    exact ⟨_, lexicalCast_digits _, rfl⟩
  | protocol =>
    cases Option.some.inj written
    exact ⟨c.protocol, lexicalCast_name isWord (by cases c.protocol <;> rfl), rfl⟩
  | verify =>
    cases Option.some.inj written
    exact ⟨c.verify, lexicalCast_name isWord (by cases c.verify <;> rfl), rfl⟩
  | mode =>
    cases Option.some.inj written
    exact ⟨c.direction, lexicalCast_name isWord (by cases c.direction <;> rfl), rfl⟩
  | shutdownPolicy =>
    cases Option.some.inj written
    exact ⟨c.shutdownPolicy, lexicalCast_name isWord (by cases c.shutdownPolicy <;> rfl), rfl⟩
  | bandwidthSamplingFrequency =>
    cases Option.some.inj written
    refine ⟨c.bandwidthSamplingFrequency, ?_, rfl⟩
    simp only [ProgramOptions.validate, reads.uint64 _ h.frequency]
    rfl
  | durationMargin =>
    obtain ⟨margin, found, rfl⟩ := Option.map_eq_some_iff.mp written
    refine ⟨some margin, ?_, congrArg (Option.map some) found⟩
    simp only [ProgramOptions.validate, (h.margin margin found).2]
    rfl
  | maxDatagramSize =>
    rw [← Option.some.inj written]
    exact ⟨c.inBytes.packetSize, lexicalCast_insertRange c.packetSize, rfl⟩

/-- An option without a text has nothing stored. -/
theorem unwritten (written : writtenText writeDuration c name = none) :
    c.inBytes.stored name = none := by
  cases name with
  | connect =>
    simp only [writtenText, ite_eq_right_iff, reduceCtorEq, imp_false] at written
    exact if_neg written
  | listen =>
    simp only [writtenText, ite_eq_left_iff, reduceCtorEq, imp_false, not_not] at written
    exact if_pos written
  | durationMargin => exact congrArg (Option.map some) (Option.map_eq_none_iff.mp written)
  | _ => cases written

theorem mem_writtenOptions {given : OptionName × List Char} :
    given ∈ writtenOptions writeDuration c ↔
      writtenText writeDuration c given.1 = some given.2 := by
  obtain ⟨name, text⟩ := given
  have every : name ∈ OptionName.all := by cases name <;> decide
  simp [writtenOptions, every]

theorem store (h : Writable options writeDuration c) (reads : options.Reads) :
    options.store (writtenOptions writeDuration c) = .ok c.inBytes.given := by
  refine map_eq_ok.mpr ⟨c.inBytes.stored, ?_, applyDefaults_stored _⟩
  refine foldlM_storeOnce ?_ (fun _ _ => rfl) (fun g member => ?_) fun name absent => ?_
  · rw [writtenOptions, List.map_filterMap]
    refine List.Nodup.filterMap (fun a b name ha hb => ?_) (by decide)
    simp only [Option.map_map, Option.mem_map, Function.comp_apply] at ha hb
    obtain ⟨_, _, rfl⟩ := ha
    obtain ⟨_, _, same⟩ := hb
    exact same.symm
  · exact h.valid reads (mem_writtenOptions.mp member)
  · have missing : writtenText writeDuration c name = none := by
      refine Option.eq_none_iff_forall_not_mem.mpr fun text written => absent ?_
      exact List.mem_map.mpr ⟨(name, text), mem_writtenOptions.mpr written, rfl⟩
    exact unwritten missing

end Writable

theorem OptionName.text_isWord (name : OptionName) : IsWord name.text := by
  cases name <;> exact isWord_of_all rfl rfl

theorem longArgument_isWord {given : OptionName × List Char} (isWord : IsWord given.2) :
    IsWord (longArgument given) := by
  refine ⟨by simp [longArgument], fun c member => ?_⟩
  rcases List.mem_append.mp member with name | text
  · rcases List.mem_append.mp name with dashes | name
    · obtain rfl : c = '-' := by simpa using dashes
      rfl
    · exact given.1.text_isWord.2 c name
  · rcases List.mem_cons.mp text with rfl | text
    · rfl
    · exact isWord.2 c text

theorem isWord_of_mem_writtenOptions {options : ProgramOptions} {writeDuration : Int → List Char}
    {c : SessionConfiguration} (h : Writable options writeDuration c) :
    ∀ w ∈ (writtenOptions writeDuration c).map longArgument, IsWord w := by
  intro w member
  obtain ⟨given, inside, rfl⟩ := List.mem_map.mp member
  exact longArgument_isWord (h.isWord (Writable.mem_writtenOptions.mp inside))

/-- A line is read back, whatever the configuration held before it. -/
theorem fillLine_writtenLine {options : ProgramOptions} (reads : options.Reads)
    {writeDuration : Int → List Char} {c : SessionConfiguration}
    (h : Writable options writeDuration c) (previous : SessionConfiguration) :
    fillLine options previous (writtenLine writeDuration c) = .ok c.inBytes := by
  rw [fillLine, writtenLine, lineArguments_intercalate (isWord_of_mem_writtenOptions h)]
  have texts : ∀ g ∈ writtenOptions writeDuration c, g.2 ≠ [] := fun g member =>
    (h.isWord (Writable.mem_writtenOptions.mp member)).1
  exact bind_eq_ok.mpr ⟨_, reads.parse _ texts, bind_eq_ok.mpr
    ⟨_, h.store reads, fillConfiguration_given h.accepted.inBytes previous⟩⟩

theorem newline_not_mem_writtenLine {options : ProgramOptions} {writeDuration : Int → List Char}
    {c : SessionConfiguration} (h : Writable options writeDuration c) :
    '\n' ∉ writtenLine writeDuration c := by
  intro member
  rcases mem_intercalate member with blank | ⟨w, inside, inner⟩
  · exact absurd blank (by decide)
  · exact absurd ((isWord_of_mem_writtenOptions h w inside).2 _ inner) (by decide)

/-- A file with a line for each configuration is read as these configurations, in their order, up to
the units of their sizes and to the sizes that no `long long` holds. -/
theorem parseFile_writtenFile {options : ProgramOptions} (reads : options.Reads)
    {writeDuration : Int → List Char} {cs : List SessionConfiguration}
    (writable : ∀ c ∈ cs, Writable options writeDuration c) (movedFrom : String → String) :
    parseFile options movedFrom (writtenFile writeDuration cs) =
      .ok (cs.map SessionConfiguration.inBytes) := by
  have absent : ∀ line ∈ cs.map (writtenLine writeDuration), '\n' ∉ line := by
    intro line member
    obtain ⟨c, inside, rfl⟩ := List.mem_map.mp member
    exact newline_not_mem_writtenLine (writable c inside)
  rw [parseFile, writtenFile, lines_flatMap absent, fillLines_eq_ok, List.forall₂_map_left_iff,
    List.forall₂_map_right_iff, List.forall₂_same]
  exact fun c member => fillLine_writtenLine reads (writable c member) valueInitialized

theorem longOption_longArgument (given : OptionName × List Char) :
    longOption (longArgument given) = some given := by
  obtain ⟨name, text⟩ := given
  have absent : '=' ∉ name.text := by cases name <;> decide
  have head : ∀ c ∈ ('=' :: text).head?, (c != '=') = false := by simp
  have found : (OptionName.all.find? fun other => other.text = name.text) = some name := by
    cases name <;> decide
  change (OptionName.all.find? fun other => other.text =
    (name.text ++ '=' :: text).takeWhile (· != '=')).map (fun other =>
      (other, ((name.text ++ '=' :: text).dropWhile (· != '=')).drop 1)) = some (name, text)
  rw [takeWhile_append_of_head (ne_of_not_mem absent) head,
    dropWhile_append_of_head (ne_of_not_mem absent) head, found]
  rfl

/-- A library that reads the durations with which it is given. -/
def durationOptions (timeDuration : List Char → Option (Option Int)) : ProgramOptions :=
  { longOptions with timeDuration := timeDuration }

theorem durationOptions_reads (timeDuration : List Char → Option (Option Int)) :
    (durationOptions timeDuration).Reads where
  parse given _ := by
    change Except.ok ((given.map longArgument).filterMap longOption) = .ok given
    rw [List.filterMap_map, funext (f := longOption ∘ longArgument) longOption_longArgument,
      List.filterMap_some]
  uint64 n bound := by
    change some (decimalValue (Nat.toDigits 10 n) % 2 ^ 64) = some n
    rw [decimalValue_toDigits, Nat.mod_eq_of_lt bound]

/-- A duration of five seconds, which is all that is read. -/
def fiveSeconds (text : List Char) : Option (Option Int) :=
  if text = "00:00:05".toList then some (some 5000000) else none

/-- A session that waits for a client to send to, with a margin of five seconds. -/
def listeningSender : SessionConfiguration :=
  { defaultConfiguration "a:1" defaultBandwidth with
    mode := .server
    direction := .tx
    packetSize := ⟨⟨1, .iec, one_bounded⟩, defaultPacketSize⟩
    durationMargin := some 5000000 }

theorem parseFile_writtenFile_two :
    parseFile (durationOptions fiveSeconds) id (writtenFile (fun _ => "00:00:05".toList)
        [defaultConfiguration "b:2" ⟨1, .iec, one_bounded⟩, listeningSender]) =
      .ok [(defaultConfiguration "b:2" ⟨1, .iec, one_bounded⟩).inBytes,
        listeningSender.inBytes] := by
  refine parseFile_writtenFile (durationOptions_reads fiveSeconds) ?_ id
  refine List.forall_mem_cons.mpr ⟨?_, List.forall_mem_singleton.mpr ?_⟩
  · exact ⟨accepted_default _ (by decide), isWord_of_all rfl rfl, by decide,
      by simp [defaultConfiguration]⟩
  · refine ⟨accepted_iff.mpr (by decide), isWord_of_all rfl rfl, by decide, fun margin found => ?_⟩
    cases found
    exact ⟨isWord_of_all rfl rfl, rfl⟩

end NetTester

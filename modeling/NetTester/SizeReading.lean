import NetTester.SizeText

namespace NetTester

section

variable {t : SizeText} {r : Regex} {system : UnitSystem}

theorem regexMatch_of_in (reads : ∀ a, Regex.Reads r t.text a ↔
      ∃ t' : SizeText, t'.In system ∧ t.text = t'.text ∧ a = t'.captures)
    (h : t.In system) : Regex.regexMatch r t.text = some t.captures := by
  apply Regex.regexMatch_of_unique ((reads _).mpr ⟨t, h, rfl, rfl⟩)
  intro b other
  obtain ⟨t', _, text, rfl⟩ := (reads b).mp other
  rw [SizeText.text_injective text]

theorem regexMatch_of_not_in (reads : ∀ a, Regex.Reads r t.text a ↔
      ∃ t' : SizeText, t'.In system ∧ t.text = t'.text ∧ a = t'.captures)
    (h : ¬t.In system) : Regex.regexMatch r t.text = none := by
  apply Regex.regexMatch_eq_none.mpr
  intro a read
  obtain ⟨t', named, text, _⟩ := (reads a).mp read
  rw [← SizeText.text_injective text] at named
  exact h named

end

theorem parseSize_text (t : SizeText) : ∃ system, t.In system ∧
    parseSize t.text = .ok (Size.ofCaptures system t.captures) := by
  have iecReads := fun a => reads_regexIec (a := a) t.solid
  have siReads := fun a => reads_regexSi (a := a) t.solid
  unfold parseSize
  by_cases iec : t.In .iec
  · exact ⟨.iec, iec, by rw [regexMatch_of_in iecReads iec]⟩
  · have si := t.in_iec_or_si.resolve_left iec
    exact ⟨.si, si, by rw [regexMatch_of_not_in iecReads iec, regexMatch_of_in siReads si]⟩

theorem text_of_parseSize {w : List Char} {size : Size} (solid : ∀ c ∈ w, isSpace c = false)
    (h : parseSize w = .ok size) : ∃ t : SizeText, w = t.text := by
  unfold parseSize at h
  split at h
  next m found =>
    obtain ⟨t, _, text, _⟩ := (reads_regexIec solid).mp (Regex.regexMatch_sound found)
    exact ⟨t, text⟩
  next =>
    split at h
    next m found =>
      obtain ⟨t, _, text, _⟩ := (reads_regexSi solid).mp (Regex.regexMatch_sound found)
      exact ⟨t, text⟩
    next => cases h

theorem foldl_mul64 {α : Type} {factor size : Nat} (labels : List α) (h : size < 2 ^ 64) :
    labels.foldl (fun size _ => mul64 size factor) size =
      size * factor ^ labels.length % 2 ^ 64 := by
  induction labels generalizing size with
  | nil => rw [List.foldl_nil, List.length_nil, Nat.pow_zero, Nat.mul_one, Nat.mod_eq_of_lt h]
  | cons label others ih =>
    rw [List.foldl_cons, ih (mul64_lt size factor), mul64, Nat.mod_mul_mod, Nat.mul_assoc,
      ← Nat.pow_succ', List.length_cons]

theorem length_switchLabels : ∀ system : UnitSystem, ∀ letter ∈ system.letters,
    (switchLabels.dropWhile fun labels => !labels.contains letter).length =
      scaleRank letter := by
  intro system
  cases system <;>
    simp [UnitSystem.letters, siLetters, iecLetters, switchLabels, List.dropWhile, scaleRank]

theorem scaleSize_text {t : SizeText} {system : UnitSystem} {size : Nat} (h : t.In system)
    (bound : size < 2 ^ 64) :
    scaleSize system.factor (t.scale.map SizeScale.text) size =
      size * t.factor ^ t.rank % 2 ^ 64 := by
  unfold SizeText.factor SizeText.rank
  cases hs : t.scale with
  | none =>
    simp only [scaleSize, Option.map_none, Nat.pow_zero, Nat.mul_one, Nat.mod_eq_of_lt bound]
  | some s =>
    obtain ⟨cs, text⟩ := s.text_eq_cons
    simp only [scaleSize, Option.map_some, text, multiplyFrom]
    rw [foldl_mul64 _ bound, length_switchLabels s.system s.letter s.allowed, h.1 s hs]

theorem parsedValue_text {t : SizeText} {system : UnitSystem} (h : t.In system) :
    parsedValue system.factor t.captures =
      t.unit.bytes (min t.count (2 ^ 63 - 1) * t.factor ^ t.rank % 2 ^ 64) := by
  have digits : t.captures.lookup 1 = some t.digits := by
    cases hs : t.scale <;> simp [SizeText.captures, hs, List.lookup_cons]
  have scale : t.captures.lookup 2 = t.scale.map SizeScale.text := by
    cases hs : t.scale <;> simp [SizeText.captures, hs, List.lookup_cons]
  have unit : t.captures.lookup 3 = some t.unit.text := by
    simp [SizeText.captures]
  unfold parsedValue
  rw [digits, scale, unit, Option.getD_some, Option.getD_some, scaleSize_text h (atoll_lt _)]
  cases t.unit <;> simp [SizeUnit.text, SizeUnit.bytes, atoll, SizeText.count]

/-- A stream from which a size is read: blanks, the text of a size, and a rest that starts at a
blank if it is not empty. -/
structure SizeInput where
  blanks : List Char
  blank : ∀ c ∈ blanks, isSpace c = true
  text : SizeText
  rest : List Char
  stop : ∀ c ∈ rest.head?, isSpace c = true

namespace SizeInput

def stream (input : SizeInput) : List Char := input.blanks ++ (input.text.text ++ input.rest)

/-- A size that fits is read as it is, and one that does not is rejected. -/
def Exact (input : SizeInput) : Prop :=
  (input.text.value < 2 ^ 64 → ∃ size, extractSize input.stream = .ok (some (size, input.rest)) ∧
    size.value = input.text.value) ∧
  (2 ^ 64 ≤ input.text.value → ∃ error, extractSize input.stream = .error error)

theorem tokens (input : SizeInput) : Tokens input.stream input.text.text input.rest where
  split := ⟨input.blanks, input.blank, rfl⟩
  nonempty := fun h => input.text.nonempty (List.append_eq_nil_iff.mp h).1
  solid := input.text.solid
  stop := input.stop

/-- Every text of a size is accepted, whatever its value. -/
theorem extractSize_stream (input : SizeInput) : ∃ size,
    extractSize input.stream = .ok (some (size, input.rest)) ∧
      size.value = input.text.unit.bytes
        (min input.text.count (2 ^ 63 - 1) * input.text.factor ^ input.text.rank % 2 ^ 64) := by
  obtain ⟨system, named, parsed⟩ := parseSize_text input.text
  refine ⟨Size.ofCaptures system input.text.captures, ?_, parsedValue_text named⟩
  unfold extractSize
  rw [token_iff.mpr input.tokens]
  simp only [parsed, Except.map]

end SizeInput

/-- The streams from which a size is read. -/
theorem extractSize_ok {stream rest : List Char} {size : Size}
    (h : extractSize stream = .ok (some (size, rest))) :
    ∃ input : SizeInput, input.stream = stream ∧ input.rest = rest := by
  unfold extractSize at h
  split at h
  next => cases h
  next word left found =>
    cases hs : parseSize word with
    | error e => simp [hs, Except.map] at h
    | ok read =>
      obtain ⟨⟨blanks, blank, split⟩, _, solid, stop⟩ := token_iff.mp found
      obtain ⟨t, rfl⟩ := text_of_parseSize solid hs
      simp only [hs, Except.map, Except.ok.injEq, Option.some.injEq, Prod.mk.injEq] at h
      obtain ⟨_, rfl⟩ := h
      exact ⟨⟨blanks, blank, t, left, stop⟩, split.symm, rfl⟩

theorem SizeText.power (t : SizeText) : t.factor ^ t.rank = 1 ∨ 1000 ≤ t.factor ^ t.rank := by
  have factor : 1000 ≤ t.factor := by
    unfold SizeText.factor
    split
    next => exact Nat.le_refl _
    next s _ => cases s.system <;> decide
  rcases Nat.eq_zero_or_pos t.rank with zero | positive
  · exact .inl (by rw [zero, Nat.pow_zero])
  · exact .inr (factor.trans (Nat.le_pow positive))

/-- Neither saturation nor wrapping gives back the size that was lost. -/
theorem SizeUnit.bytes_eq_iff (unit : SizeUnit) {n power : Nat} (h : power = 1 ∨ 1000 ≤ power) :
    unit.bytes (n * power) < 2 ^ 64 ∧
        unit.bytes (min n (2 ^ 63 - 1) * power % 2 ^ 64) = unit.bytes (n * power) ↔
      n < 2 ^ 63 ∧ n * power < 2 ^ 64 := by
  by_cases small : n < 2 ^ 63
  · have same : min n (2 ^ 63 - 1) = n := by omega
    rw [same]
    cases unit <;> simp only [bytes] <;> omega
  · have saturated : min n (2 ^ 63 - 1) = 2 ^ 63 - 1 := by omega
    rw [saturated]
    rcases h with rfl | large
    · cases unit <;> simp only [bytes] <;> omega
    · have product : 2 ^ 63 * 1000 ≤ n * power := Nat.mul_le_mul (by omega) large
      cases unit <;> simp only [bytes] <;> omega

/-- A size is read exactly if its digits fit in a `long long` and their product with the scale,
before the division of the bits, in 64 bits. -/
theorem extractSize_exact_iff (input : SizeInput) : input.Exact ↔
    input.text.count < 2 ^ 63 ∧
      input.text.count * input.text.factor ^ input.text.rank < 2 ^ 64 := by
  obtain ⟨size, read, value⟩ := input.extractSize_stream
  rw [← SizeUnit.bytes_eq_iff input.text.unit input.text.power, ← value]
  constructor
  · rintro ⟨fits, large⟩
    have bound : input.text.value < 2 ^ 64 := by
      by_contra exceeded
      obtain ⟨error, rejected⟩ := large (by omega)
      rw [read] at rejected
      cases rejected
    obtain ⟨size', read', value'⟩ := fits bound
    rw [read] at read'
    cases read'
    exact ⟨bound, value'⟩
  · rintro ⟨bound, same⟩
    exact ⟨fun _ => ⟨size, read, same⟩, fun exceeded => absurd bound (Nat.not_lt.mpr exceeded)⟩

def exbibytes : SizeInput where
  blanks := []
  blank := by simp
  text := ⟨['1', '6'], by simp, by simp, some ⟨.iec, 'E', by decide⟩, .byte, by simp⟩
  rest := []
  stop := by simp

/-- 16 exbibytes are read as nothing. -/
theorem extractSize_wraps : exbibytes.stream = ['1', '6', 'E', 'i', 'B'] ∧
    exbibytes.text.value = 2 ^ 64 ∧
    (∃ size, extractSize exbibytes.stream = .ok (some (size, [])) ∧ size.value = 0) ∧
    ¬exbibytes.Exact := by
  obtain ⟨size, read, value⟩ := exbibytes.extractSize_stream
  have zero : size.value = 0 := value.trans (by decide +kernel)
  have large : exbibytes.text.value = 2 ^ 64 := by decide +kernel
  refine ⟨rfl, large, ⟨size, read, zero⟩, fun exact => ?_⟩
  obtain ⟨error, rejected⟩ := exact.2 (Nat.le_of_eq large.symm)
  rw [read] at rejected
  cases rejected

end NetTester

import NetTester.ParseSize

namespace NetTester

def UnitSystem.letters : UnitSystem → List Char
  | .si => siLetters
  | .iec => iecLetters

/-- A scale of one of the two systems. -/
@[ext] structure SizeScale where
  system : UnitSystem
  letter : Char
  allowed : letter ∈ system.letters

/-- The rank of a scale: the power of its factor. -/
def scaleRank : Char → Nat
  | 'K' | 'k' => 1
  | 'M' => 2
  | 'G' => 3
  | 'T' => 4
  | 'P' => 5
  | 'E' => 6
  | _ => 0

def SizeScale.text (scale : SizeScale) : List Char :=
  match scale.system with
  | .si => [scale.letter]
  | .iec => [scale.letter, 'i']

inductive SizeUnit
  | byte
  | b
  | bit
deriving DecidableEq

namespace SizeUnit

def text : SizeUnit → List Char
  | .byte => ['B']
  | .b => ['b']
  | .bit => ['b', 'i', 't']

/-- The bytes of an amount. -/
def bytes (unit : SizeUnit) (amount : Nat) : Nat :=
  match unit with
  | .byte => amount
  | .b | .bit => amount / 8

end SizeUnit

/-- A text with a size: digits, a scale or none, and a unit. -/
@[ext] structure SizeText where
  digits : List Char
  nonempty : digits ≠ []
  decimal : ∀ c ∈ digits, c.isDigit = true
  scale : Option SizeScale
  unit : SizeUnit
  /-- A scale with an `i` does not go with the short name of the bit. -/
  allowed : ∀ s ∈ scale, s.system = .iec → unit ≠ .b

namespace SizeText

def scaleText (t : SizeText) : List Char := (t.scale.map SizeScale.text).getD []

def text (t : SizeText) : List Char := t.digits ++ (t.scaleText ++ t.unit.text)

def count (t : SizeText) : Nat := decimalValue t.digits

def rank (t : SizeText) : Nat :=
  match t.scale with
  | none => 0
  | some scale => scaleRank scale.letter

def factor (t : SizeText) : Nat :=
  match t.scale with
  | none => 1000
  | some scale => scale.system.factor

/-- The size that a text names, over all numbers. -/
def value (t : SizeText) : Nat := t.unit.bytes (t.count * t.factor ^ t.rank)

def captures (t : SizeText) : Regex.Captures :=
  (3, t.unit.text) :: ((t.scale.map fun s => (2, s.text)).toList ++ [(1, t.digits)])

/-- The texts that the expression of a system reads. -/
def In (t : SizeText) (system : UnitSystem) : Prop :=
  (∀ s ∈ t.scale, s.system = system) ∧ (system = .iec → t.unit ≠ .b)

end SizeText

theorem isSpace_of_isDigit {c : Char} (h : c.isDigit = true) : isSpace c = false := by
  obtain ⟨low, high⟩ := Char.isDigit_iff_toNat.mp h
  have zero : '0'.toNat = 48 := rfl
  simp only [isSpace, Bool.or_eq_false_iff, beq_eq_false_iff_ne, Bool.and_eq_false_iff,
    decide_eq_false_iff_not]
  omega

theorem letter_facts : ∀ system : UnitSystem, ∀ letter ∈ system.letters,
    letter.isDigit = false ∧ isSpace letter = false ∧ letter ≠ 'B' ∧ letter ≠ 'b' := by
  intro system
  cases system <;> simp [UnitSystem.letters, siLetters, iecLetters, isSpace]

theorem SizeUnit.text_facts : ∀ unit : SizeUnit, ∃ c cs, unit.text = c :: cs ∧
    c.isDigit = false ∧ isSpace c = false ∧ (c = 'B' ∨ c = 'b') := by
  intro unit
  cases unit <;> exact ⟨_, _, rfl, by decide⟩

theorem SizeUnit.solid : ∀ unit : SizeUnit, ∀ c ∈ unit.text, isSpace c = false := by
  intro unit
  cases unit <;> simp [text, isSpace]

theorem SizeUnit.text_injective {unit unit' : SizeUnit} (h : unit.text = unit'.text) :
    unit = unit' := by
  revert unit unit'
  intro unit unit'
  cases unit <;> cases unit' <;> simp [text]

namespace SizeScale

variable {scale scale' : SizeScale}

theorem text_eq_cons (scale : SizeScale) : ∃ cs, scale.text = scale.letter :: cs := by
  unfold text
  split <;> exact ⟨_, rfl⟩

theorem solid (scale : SizeScale) : ∀ c ∈ scale.text, isSpace c = false := by
  obtain ⟨system, letter, allowed⟩ := scale
  obtain ⟨_, space, _⟩ := letter_facts system letter allowed
  intro c hc
  cases system <;> simp only [text, List.mem_cons, List.not_mem_nil, or_false] at hc
  · rwa [hc]
  · rcases hc with rfl | rfl
    · exact space
    · decide

/-- No unit begins with the letter of a scale. -/
theorem text_ne_unit (scale : SizeScale) (unit unit' : SizeUnit) :
    scale.text ++ unit.text ≠ unit'.text := by
  intro h
  obtain ⟨_, _, notB, notb⟩ := letter_facts scale.system scale.letter scale.allowed
  obtain ⟨cs, hcs⟩ := scale.text_eq_cons
  obtain ⟨c, _, hc, _, _, names⟩ := unit'.text_facts
  rw [hcs, hc, List.cons_append] at h
  obtain ⟨same, _⟩ := List.cons.inj h
  rcases names with rfl | rfl
  · exact notB same
  · exact notb same

theorem text_append_injective {unit unit' : SizeUnit}
    (h : scale.text ++ unit.text = scale'.text ++ unit'.text) :
    scale = scale' ∧ unit = unit' := by
  obtain ⟨system, letter, allowed⟩ := scale
  obtain ⟨system', letter', allowed'⟩ := scale'
  cases system <;> cases system' <;> simp only [text, List.cons_append, List.nil_append] at h
  · obtain ⟨rfl, tail⟩ := List.cons.inj h
    exact ⟨rfl, SizeUnit.text_injective tail⟩
  · cases unit <;> simp [SizeUnit.text] at h
  · cases unit' <;> simp [SizeUnit.text] at h
  · obtain ⟨rfl, tail⟩ := List.cons.inj h
    exact ⟨rfl, SizeUnit.text_injective (List.cons.inj tail).2⟩

end SizeScale

namespace SizeText

variable {t t' : SizeText}

/-- What follows the digits begins with a letter, so it shows where they end. -/
theorem head_suffix : ∃ c cs, t.scaleText ++ t.unit.text = c :: cs ∧ c.isDigit = false ∧
    isSpace c = false := by
  obtain ⟨c, cs, unit, digit, space, _⟩ := t.unit.text_facts
  cases hs : t.scale with
  | none => exact ⟨c, cs, by simp [scaleText, hs, unit], digit, space⟩
  | some scale =>
    obtain ⟨digit, space, _⟩ := letter_facts scale.system scale.letter scale.allowed
    obtain ⟨system, letter, allowed⟩ := scale
    cases system
    · exact ⟨letter, _, by simp [scaleText, hs, SizeScale.text]; rfl, digit, space⟩
    · exact ⟨letter, _, by simp [scaleText, hs, SizeScale.text]; rfl, digit, space⟩

theorem suffix_injective (h : t.scaleText ++ t.unit.text = t'.scaleText ++ t'.unit.text) :
    t.scale = t'.scale ∧ t.unit = t'.unit := by
  unfold scaleText at h
  cases hs : t.scale with
  | none =>
    cases hs' : t'.scale with
    | none => exact ⟨rfl, SizeUnit.text_injective (by simpa [hs, hs'] using h)⟩
    | some scale => exact absurd (by simpa [hs, hs'] using h.symm) (scale.text_ne_unit _ _)
  | some scale =>
    cases hs' : t'.scale with
    | none => exact absurd (by simpa [hs, hs'] using h) (scale.text_ne_unit _ _)
    | some scale' =>
      have joined : scale.text ++ t.unit.text = scale'.text ++ t'.unit.text := by
        simpa [hs, hs'] using h
      obtain ⟨rfl, unit⟩ := SizeScale.text_append_injective joined
      exact ⟨rfl, unit⟩

/-- A text is read in one way only. -/
theorem text_injective (h : t.text = t'.text) : t = t' := by
  obtain ⟨c, cs, split, digit, _⟩ := t.head_suffix
  obtain ⟨c', cs', split', digit', _⟩ := t'.head_suffix
  have digits : t.digits = t'.digits := by
    have left : t.text.takeWhile Char.isDigit = t.digits :=
      takeWhile_append_of_head t.decimal (by simpa [split] using digit)
    have right : t'.text.takeWhile Char.isDigit = t'.digits :=
      takeWhile_append_of_head t'.decimal (by simpa [split'] using digit')
    rw [← left, h, right]
  have suffix : t.scaleText ++ t.unit.text = t'.scaleText ++ t'.unit.text := by
    unfold text at h
    rw [digits] at h
    exact List.append_cancel_left h
  obtain ⟨scale, unit⟩ := suffix_injective suffix
  exact SizeText.ext digits scale unit

end SizeText

section

open Regex

variable {system : UnitSystem} {scale unit : Regex} {w : List Char} {a : Captures}

/-- The parts of a word, where the expressions of the scale and of the unit are those of a
system. -/
theorem reads_sizeRegex (solid : ∀ c ∈ w, isSpace c = false)
    (reads_scale : ∀ {w a}, Reads scale w a ↔
      (∃ s : SizeScale, s.system = system ∧ w = s.text) ∧ a = [])
    (reads_unit : ∀ {w a}, Reads unit w a ↔
      (∃ u : SizeUnit, (system = .iec → u ≠ .b) ∧ w = u.text) ∧ a = []) :
    Reads (sizeRegex scale unit) w a ↔
      ∃ t : SizeText, t.In system ∧ w = t.text ∧ a = t.captures := by
  constructor
  · intro h
    obtain ⟨digits, _, _, _, first, others, rfl, rfl⟩ := reads_seq.mp h
    obtain ⟨_, plus, rfl⟩ := reads_group.mp first
    obtain ⟨nonempty, decimal, rfl⟩ := reads_plus_char.mp plus
    obtain ⟨blanks, _, _, _, many, ends, rfl, rfl⟩ := reads_seq.mp others
    obtain ⟨blank, rfl⟩ := reads_many_char.mp many
    obtain ⟨scaleText, _, _, _, optional, last, rfl, rfl⟩ := reads_seq.mp ends
    obtain ⟨_, named, rfl⟩ := reads_group.mp last
    obtain ⟨⟨u, allowed, rfl⟩, rfl⟩ := reads_unit.mp named
    obtain rfl : blanks = [] := by
      refine List.eq_nil_iff_forall_not_mem.mpr fun c hc => ?_
      have notSpace := solid c (by simp [hc])
      simp [blank c hc] at notSpace
    rcases reads_opt.mp optional with scaled | ⟨rfl, rfl⟩
    · obtain ⟨_, read, rfl⟩ := reads_group.mp scaled
      obtain ⟨⟨s, rfl, rfl⟩, rfl⟩ := reads_scale.mp read
      refine ⟨⟨digits, nonempty, decimal, some s, u, ?_⟩, ⟨?_, allowed⟩, ?_, ?_⟩
      · rintro _ ⟨⟩
        exact allowed
      · rintro _ ⟨⟩
        rfl
      · simp [SizeText.text, SizeText.scaleText]
      · simp [SizeText.captures]
    · refine ⟨⟨digits, nonempty, decimal, none, u, by simp⟩, ⟨by simp, allowed⟩, ?_, ?_⟩
      · simp [SizeText.text, SizeText.scaleText]
      · simp [SizeText.captures]
  · rintro ⟨t, ⟨same, allowed⟩, rfl, rfl⟩
    have first : Reads (.group 1 (plus (.char Char.isDigit))) t.digits [(1, t.digits)] :=
      .group (reads_plus_char.mpr ⟨t.nonempty, t.decimal, rfl⟩)
    have optional : Reads (.opt (.group 2 scale)) t.scaleText
        (t.scale.map fun s => (2, s.text)).toList := by
      unfold SizeText.scaleText
      cases hs : t.scale with
      | none => exact .optNone
      | some s => exact .optSome (.group (reads_scale.mpr ⟨⟨s, same s hs, rfl⟩, rfl⟩))
    have last : Reads (.group 3 unit) t.unit.text [(3, t.unit.text)] :=
      .group (reads_unit.mpr ⟨⟨t.unit, allowed, rfl⟩, rfl⟩)
    have all := Reads.seq first (.seq (.manyNil (r := .char isSpace)) (.seq optional last))
    simpa [sizeRegex, SizeText.text, SizeText.captures] using all

theorem reads_regexIec (solid : ∀ c ∈ w, isSpace c = false) :
    Reads regexIec w a ↔ ∃ t : SizeText, t.In .iec ∧ w = t.text ∧ a = t.captures := by
  refine reads_sizeRegex solid ?_ ?_
  · intro w a
    simp only [reads_seq, reads_char, List.contains_eq_mem, decide_eq_true_eq, beq_iff_eq]
    constructor
    · rintro ⟨_, _, _, _, ⟨letter, h, rfl, rfl⟩, ⟨_, rfl, rfl, rfl⟩, rfl, rfl⟩
      exact ⟨⟨⟨.iec, letter, h⟩, rfl, rfl⟩, rfl⟩
    · rintro ⟨⟨⟨_, letter, h⟩, rfl, rfl⟩, rfl⟩
      exact ⟨_, _, _, _, ⟨letter, h, rfl, rfl⟩, ⟨_, rfl, rfl, rfl⟩, rfl, rfl⟩
  · intro w a
    simp only [reads_alt, reads_literal]
    constructor
    · rintro (⟨rfl, rfl⟩ | ⟨rfl, rfl⟩)
      · exact ⟨⟨.byte, by simp, rfl⟩, rfl⟩
      · exact ⟨⟨.bit, by simp, rfl⟩, rfl⟩
    · rintro ⟨⟨u, allowed, rfl⟩, rfl⟩
      cases u with
      | byte => exact .inl ⟨rfl, rfl⟩
      | b => exact absurd rfl (allowed trivial)
      | bit => exact .inr ⟨rfl, rfl⟩

theorem reads_regexSi (solid : ∀ c ∈ w, isSpace c = false) :
    Reads regexSi w a ↔ ∃ t : SizeText, t.In .si ∧ w = t.text ∧ a = t.captures := by
  refine reads_sizeRegex solid ?_ ?_
  · intro w a
    simp only [reads_char, List.contains_eq_mem, decide_eq_true_eq]
    constructor
    · rintro ⟨letter, h, rfl, rfl⟩
      exact ⟨⟨⟨.si, letter, h⟩, rfl, rfl⟩, rfl⟩
    · rintro ⟨⟨⟨_, letter, h⟩, rfl, rfl⟩, rfl⟩
      exact ⟨letter, h, rfl, rfl⟩
  · intro w a
    simp only [reads_alt, reads_literal]
    constructor
    · rintro (⟨rfl, rfl⟩ | ⟨rfl, rfl⟩ | ⟨rfl, rfl⟩)
      · exact ⟨⟨.byte, by simp, rfl⟩, rfl⟩
      · exact ⟨⟨.b, by simp, rfl⟩, rfl⟩
      · exact ⟨⟨.bit, by simp, rfl⟩, rfl⟩
    · rintro ⟨⟨u, _, rfl⟩, rfl⟩
      cases u with
      | byte => exact .inl ⟨rfl, rfl⟩
      | b => exact .inr (.inl ⟨rfl, rfl⟩)
      | bit => exact .inr (.inr ⟨rfl, rfl⟩)

end

namespace SizeText

variable {t : SizeText} {system : UnitSystem}

theorem solid (t : SizeText) : ∀ c ∈ t.text, isSpace c = false := by
  intro c hc
  rcases List.mem_append.mp hc with digit | hc
  · exact isSpace_of_isDigit (t.decimal c digit)
  rcases List.mem_append.mp hc with scale | unit
  · unfold scaleText at scale
    cases hs : t.scale with
    | none => simp [hs] at scale
    | some s => exact s.solid c (by simpa [hs] using scale)
  · exact t.unit.solid c unit

theorem in_iec_or_si (t : SizeText) : t.In .iec ∨ t.In .si := by
  cases hs : t.scale with
  | none => exact .inr ⟨by simp [hs], by simp⟩
  | some s =>
    cases system : s.system with
    | iec =>
      refine .inl ⟨fun s' h => ?_, fun _ => t.allowed s hs system⟩
      rw [hs] at h
      cases h
      exact system
    | si =>
      refine .inr ⟨fun s' h => ?_, by simp⟩
      rw [hs] at h
      cases h
      exact system

end SizeText

end NetTester

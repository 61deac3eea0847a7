import NetTester.ParseSize
import Mathlib.Data.List.GetD
import Mathlib.Data.Rat.Floor
import Mathlib.Tactic.NormNum
import Mathlib.Tactic.FieldSimp

namespace NetTester

def unitsIec : List (List Char) :=
  [['b', 'i', 't'], ['K', 'i', 'b', 'i', 't'], ['M', 'i', 'b', 'i', 't'],
   ['G', 'i', 'b', 'i', 't'], ['T', 'i', 'b', 'i', 't'], ['P', 'i', 'b', 'i', 't'],
   ['E', 'i', 'b', 'i', 't']]

def unitsSi : List (List Char) :=
  [['b', 'i', 't'], ['k', 'b', 'i', 't'], ['M', 'b', 'i', 't'],
   ['G', 'b', 'i', 't'], ['T', 'b', 'i', 't'], ['P', 'b', 'i', 't'],
   ['E', 'b', 'i', 't']]

def unitsCount : Nat := unitsIec.length

def UnitSystem.units : UnitSystem → List (List Char)
  | .si => unitsSi
  | .iec => unitsIec

/-- The loop that picks the unit, from `i`, where `left` units follow. -/
def unitLoop (factor : ℚ) : Nat → Nat → ℚ → Nat × ℚ
  | 0, i, value => (i, value)
  | left + 1, i, value =>
    if 1 ≤ value / factor then unitLoop factor left (i + 1) (value / factor) else (i, value)

/-- The nearest integer, and of two the even one: the rounding of the default mode. -/
def roundEven (value : ℚ) : Int :=
  let below := value - ⌊value⌋
  if below < 1 / 2 ∨ below = 1 / 2 ∧ ⌊value⌋ % 2 = 0 then ⌊value⌋ else ⌊value⌋ + 1

/-- `std::fixed << std::setprecision(1)` of a value that is not negative. -/
def fixed1 (value : ℚ) : List Char :=
  let tenths := (roundEven (10 * value)).toNat
  Nat.toDigits 10 (tenths / 10) ++ '.' :: Nat.toDigits 10 (tenths % 10)

/-- `size * 8`: the product of two `uint64_t`, also where it is widened afterwards. -/
def Size.bits (size : Size) : Nat := mul64 size.value 8

/-- The unit and the value of the loop of `operator<<`. -/
def Size.scaled (size : Size) : Nat × ℚ :=
  unitLoop size.unitSystem.factor (unitsCount - 1) 0 size.bits

def unitAt (unitSystem : UnitSystem) (i : Nat) : List Char := unitSystem.units.getD i []

/-- `operator<<`. -/
def insertSize (size : Size) : List Char :=
  fixed1 size.scaled.2 ++ unitAt size.unitSystem size.scaled.1 ++
    '(' :: (Nat.toDigits 10 size.bits ++ unitAt size.unitSystem 0 ++ [')'])

/-- The number in parentheses of a printed size. -/
def parenthesised (text : List Char) : Nat :=
  decimalValue (((text.dropWhile (· != '(')).drop 1).takeWhile Char.isDigit)

/-- The unit for an amount of bits: the greatest that is not above it, if there is one. -/
def UnitFor (factor bits i : Nat) : Prop :=
  if bits < factor then i = 0
  else if factor ^ (unitsCount - 1) ≤ bits then i = unitsCount - 1
  else factor ^ i ≤ bits ∧ bits < factor ^ (i + 1)

theorem UnitSystem.one_lt_factor (unitSystem : UnitSystem) : 1 < unitSystem.factor := by
  cases unitSystem <;> decide

theorem Size.bits_eq_iff {size : Size} : size.bits = 8 * size.value ↔ size.value < 2 ^ 61 := by
  have bound := size.bounded
  unfold Size.bits mul64
  omega

/-- What the loop has divided by, and why it went on and stopped. -/
theorem unitLoop_eq {factor : ℚ} (positive : 0 < factor) (left i : Nat) (value : ℚ) :
    ∃ k ≤ left, unitLoop factor left i value = (i + k, value / factor ^ k) ∧
      (k = 0 ∨ factor ^ k ≤ value) ∧ (k = left ∨ value < factor ^ (k + 1)) := by
  induction left generalizing i value with
  | zero => exact ⟨0, Nat.le_refl 0, by simp [unitLoop], .inl rfl, .inl rfl⟩
  | succ left ih =>
    rw [unitLoop]
    split
    next goes =>
      obtain ⟨k, bound, loop, entered, left'⟩ := ih (i + 1) (value / factor)
      have first : factor ≤ value := by rwa [le_div_iff₀ positive, one_mul] at goes
      refine ⟨k + 1, Nat.succ_le_succ bound, ?_, .inr ?_, ?_⟩
      · rw [loop, pow_succ', div_div, Nat.add_assoc, Nat.add_comm 1 k]
      · rcases entered with rfl | above
        · simpa using first
        · rwa [le_div_iff₀ positive, ← pow_succ] at above
      · rcases left' with rfl | below
        · exact .inl rfl
        · rw [div_lt_iff₀ positive, ← pow_succ] at below
          exact .inr below
    next stops =>
      refine ⟨0, Nat.zero_le _, by simp, .inl rfl, .inr ?_⟩
      rw [zero_add, pow_one]
      rw [le_div_iff₀ positive, one_mul] at stops
      exact lt_of_not_ge stops

/-- The loop picks the unit for the bits it starts from, and divides them by that unit. -/
theorem unitFor_scaled (size : Size) : UnitFor size.unitSystem.factor size.bits size.scaled.1 ∧
    size.scaled.2 = size.bits / (size.unitSystem.factor : ℚ) ^ size.scaled.1 := by
  have one := size.unitSystem.one_lt_factor
  have positive : (0 : ℚ) < size.unitSystem.factor := by exact_mod_cast Nat.zero_lt_of_lt one
  obtain ⟨k, bound, loop, entered, left⟩ :=
    unitLoop_eq positive (unitsCount - 1) 0 (size.bits : ℚ)
  rw [Size.scaled, loop, Nat.zero_add]
  have entered : k = 0 ∨ size.unitSystem.factor ^ k ≤ size.bits := by exact_mod_cast entered
  have left : k = unitsCount - 1 ∨ size.bits < size.unitSystem.factor ^ (k + 1) := by
    exact_mod_cast left
  refine ⟨?_, rfl⟩
  show UnitFor _ _ k
  unfold UnitFor
  split
  next small =>
    rcases entered with rfl | above
    · rfl
    · by_contra nonzero
      have := Nat.le_self_pow nonzero size.unitSystem.factor
      omega
  next large =>
  split
  next top =>
    rcases left with same | below
    · exact same
    · have := (Nat.pow_lt_pow_iff_right one).mp (Nat.lt_of_le_of_lt top below)
      omega
  next middle =>
    have below : size.bits < size.unitSystem.factor ^ (k + 1) := by
      rcases left with rfl | below
      · rcases entered with zero | above
        · cases zero
        · exact absurd above middle
      · exact below
    rcases entered with rfl | above
    · exact absurd below (by simpa using large)
    · exact ⟨above, below⟩

theorem mem_fixed1 {value : ℚ} {c : Char} (member : c ∈ fixed1 value) :
    c.isDigit = true ∨ c = '.' := by
  rcases List.mem_append.mp member with whole | member
  · exact .inl (isDigit_of_mem_toDigits c whole)
  · rcases List.mem_cons.mp member with rfl | tenth
    · exact .inr rfl
    · exact .inl (isDigit_of_mem_toDigits c tenth)

theorem isAlpha_of_mem_unitAt {unitSystem : UnitSystem} {i : Nat} {c : Char}
    (member : c ∈ unitAt unitSystem i) : c.isAlpha = true := by
  have all : ∀ unit ∈ unitSystem.units, ∀ c ∈ unit, c.isAlpha = true := by
    cases unitSystem <;> simp [UnitSystem.units, unitsIec, unitsSi]
  unfold unitAt at member
  by_cases inside : i < unitSystem.units.length
  · rw [List.getD_eq_getElem _ _ inside] at member
    exact all _ (List.getElem_mem inside) c member
  · rw [List.getD_eq_default _ _ (Nat.le_of_not_lt inside)] at member
    cases member

/-- A size is printed in one word. -/
theorem mem_insertSize {size : Size} {c : Char} (member : c ∈ insertSize size) :
    c.isDigit = true ∨ c.isAlpha = true ∨ c = '.' ∨ c = '(' ∨ c = ')' := by
  simp only [insertSize, List.mem_append, List.mem_cons, List.not_mem_nil, or_false] at member
  rcases member with (value | unit) | rfl | (bits | unit) | rfl
  · rcases mem_fixed1 value with digit | rfl
    · exact .inl digit
    · exact .inr (.inr (.inl rfl))
  · exact .inr (.inl (isAlpha_of_mem_unitAt unit))
  · exact .inr (.inr (.inr (.inl rfl)))
  · exact .inl (isDigit_of_mem_toDigits c bits)
  · exact .inr (.inl (isAlpha_of_mem_unitAt unit))
  · exact .inr (.inr (.inr (.inr rfl)))

theorem unitAt_zero (unitSystem : UnitSystem) : unitAt unitSystem 0 = ['b', 'i', 't'] := by
  cases unitSystem <;> rfl

/-- What a reader finds in the parentheses, whatever is printed behind. -/
theorem parenthesised_insertSize (size : Size) (rest : List Char) :
    parenthesised (insertSize size ++ rest) = size.bits := by
  have front : ∀ c ∈ fixed1 size.scaled.2 ++ unitAt size.unitSystem size.scaled.1,
      (c != '(') = true := by
    intro c member
    rw [bne_iff_ne]
    rintro rfl
    rcases List.mem_append.mp member with value | unit
    · simpa using mem_fixed1 value
    · simpa using isAlpha_of_mem_unitAt unit
  unfold parenthesised insertSize
  rw [List.append_assoc, dropWhile_append_of_head front (by simp), List.cons_append,
    List.drop_succ_cons, List.drop_zero, List.append_assoc, List.append_assoc,
    takeWhile_append_of_head isDigit_of_mem_toDigits, decimalValue_toDigits]
  rw [unitAt_zero]
  rintro c ⟨⟩
  rfl

example : insertSize ⟨1000, .si, by decide⟩ =
    ['8', '.', '0', 'k', 'b', 'i', 't', '(', '8', '0', '0', '0', 'b', 'i', 't', ')'] := by
  decide +kernel

/-- The printed bits are eight times the value, and the unit is theirs, as far as the product of
the two does not wrap. -/
theorem insertSize_exact_iff (size : Size) :
    parenthesised (insertSize size) = 8 * size.value ∧
        UnitFor size.unitSystem.factor (8 * size.value) size.scaled.1 ↔
      size.value < 2 ^ 61 := by
  have printed := parenthesised_insertSize size []
  rw [List.append_nil] at printed
  rw [printed, Size.bits_eq_iff]
  constructor
  · exact And.left
  · intro small
    have unit := (unitFor_scaled size).1
    rw [Size.bits_eq_iff.mpr small] at unit
    exact ⟨small, unit⟩

/-- The greatest binary exponent: `2EiB` is printed as nothing. -/
theorem insertSize_two_exbibytes :
    ¬(parenthesised (insertSize ⟨2 ^ 61, .iec, by decide⟩) = 8 * 2 ^ 61 ∧
      UnitFor 1024 (8 * 2 ^ 61) (Size.scaled ⟨2 ^ 61, .iec, by decide⟩).1) := by
  have printed := parenthesised_insertSize ⟨2 ^ 61, .iec, by decide⟩ []
  rw [List.append_nil] at printed
  rw [printed]
  rintro ⟨same, _⟩
  revert same
  decide

end NetTester

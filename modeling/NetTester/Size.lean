import Mathlib.Algebra.Group.Int.Defs
import Mathlib.Algebra.Group.Nat.Defs
import Mathlib.Tactic.Common

namespace NetTester

inductive UnitSystem
  | si
  | iec
deriving DecidableEq, Repr

/-- A 64-bit amount of bytes, with the unit system its text used. -/
@[ext] structure Size where
  value : Nat
  unitSystem : UnitSystem
  bounded : value < 2 ^ 64
deriving DecidableEq

namespace Size

def zero : Size := ⟨0, .iec, by decide⟩

/-- `operator+=` on the underlying `uint64_t`: it wraps. -/
def add (size : Size) (n : Nat) : Size :=
  ⟨(size.value + n) % 2 ^ 64, size.unitSystem, Nat.mod_lt _ (by decide)⟩

@[simp] theorem zero_value : zero.value = 0 := rfl

theorem add_value (size : Size) (n : Nat) : (size.add n).value = (size.value + n) % 2 ^ 64 := rfl

theorem add_value_of_lt {size : Size} {n : Nat} (h : size.value + n < 2 ^ 64) :
    (size.add n).value = size.value + n := Nat.mod_eq_of_lt h

end Size

/-- `size_t` subtraction: it wraps. -/
def sub64 (a b : Nat) : Nat := (a + 2 ^ 64 - b) % 2 ^ 64

theorem sub64_of_le {a b : Nat} (h : b ≤ a) (bound : a < 2 ^ 64) : sub64 a b = a - b := by
  unfold sub64
  omega

structure Range (α : Type) where
  low : α
  high : α
deriving DecidableEq

theorem one_bounded : 1 < 2 ^ 64 := by decide

end NetTester

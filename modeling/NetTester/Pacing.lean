import Mathlib.Tactic.IntervalCases
import Mathlib.Tactic.Linarith
import Mathlib.Tactic.Ring

namespace Pacing

/-- Instants that follow a periodic schedule: each may be late, none is early, and the next one is
still due on the schedule. -/
structure Paced (start period : Nat) (instants : List Nat) (next : Nat) : Prop where
  next_eq : next = start + instants.length * period
  late : ∀ i t, instants[i]? = some t → start + i * period ≤ t

variable {start period next now : Nat} {instants : List Nat}

theorem Paced.nil : Paced start period [] start :=
  ⟨by simp, by simp⟩

theorem Paced.concat (h : Paced start period instants next) (due : next ≤ now) :
    Paced start period (instants ++ [now]) (next + period) := by
  refine ⟨?_, fun i t hi => ?_⟩
  · rw [h.next_eq, List.length_append, List.length_singleton]
    ring
  · rcases Nat.lt_or_ge i instants.length with lt | ge
    · rw [List.getElem?_append_left lt] at hi
      exact h.late i t hi
    · obtain ⟨bound, eq⟩ := List.getElem?_eq_some_iff.mp hi
      have last : i = instants.length := by simp at bound; omega
      subst last
      have : t = now := by simpa using eq.symm
      rw [this, ← h.next_eq]
      exact due

/-- Instants that all lie in the past bound their number by the time since the start. -/
theorem Paced.length_le (h : Paced start period instants next) (past : ∀ t ∈ instants, t ≤ now)
    (nonempty : instants ≠ []) : start + (instants.length - 1) * period ≤ now := by
  have bound : instants.length - 1 < instants.length :=
    Nat.sub_lt (List.length_pos_iff.mpr nonempty) Nat.one_pos
  have last := List.getElem?_eq_getElem bound
  exact (h.late _ _ last).trans (past _ (List.getElem_mem bound))

/-- A quantum for each period, with one in advance, keeps below a rate as long as what the limit
leaves for a period takes no longer than the period at that rate. -/
theorem rate_bound {amount limit quantum scale rate elapsed k : Nat}
    (released : amount ≤ k * quantum) (limited : amount ≤ limit)
    (paced : (k - 1) * period ≤ elapsed)
    (slow : (min (2 * quantum) limit - quantum) * scale ≤ rate * period) :
    amount * scale ≤ rate * elapsed + quantum * scale := by
  rcases Nat.lt_or_ge k 2 with few | many
  · have first : amount ≤ quantum := released.trans (by interval_cases k <;> omega)
    exact (Nat.mul_le_mul_right scale first).trans (Nat.le_add_left _ _)
  obtain ⟨j, rfl⟩ : ∃ j, k = j + 2 := ⟨k - 2, by omega⟩
  have later : (j + 1) * period ≤ elapsed := by simpa using paced
  rcases Nat.le_total (2 * quantum) limit with full | partly
  · have each : quantum * scale ≤ rate * period := by
      rwa [Nat.min_eq_left full, show 2 * quantum - quantum = quantum by omega] at slow
    calc
      amount * scale ≤ (j + 2) * quantum * scale := Nat.mul_le_mul_right scale released
      _ = (j + 1) * (quantum * scale) + quantum * scale := by ring
      _ ≤ (j + 1) * (rate * period) + quantum * scale :=
        Nat.add_le_add_right (Nat.mul_le_mul_left (j + 1) each) _
      _ = rate * ((j + 1) * period) + quantum * scale := by ring
      _ ≤ rate * elapsed + quantum * scale :=
        Nat.add_le_add_right (Nat.mul_le_mul_left rate later) _
  · rw [Nat.min_eq_right partly] at slow
    have once : period ≤ elapsed := (Nat.le_mul_of_pos_left period (Nat.succ_pos j)).trans later
    calc
      amount * scale ≤ (limit - quantum + quantum) * scale :=
        Nat.mul_le_mul_right scale (by omega)
      _ = (limit - quantum) * scale + quantum * scale := by ring
      _ ≤ rate * period + quantum * scale := Nat.add_le_add_right slow _
      _ ≤ rate * elapsed + quantum * scale :=
        Nat.add_le_add_right (Nat.mul_le_mul_left rate once) _

end Pacing

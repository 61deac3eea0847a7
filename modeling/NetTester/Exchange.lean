import Mathlib.Logic.Function.Basic
import NetTester.Machine

namespace NetTester

/-- What the parties of a test are to do: each has a peer, an amount to send to it and an amount to
count of what the peer sends. -/
structure Plan (ι : Type) where
  peer : ι → ι
  toSend : ι → Nat
  toCount : ι → Nat

/-- A test as it is seen from the outside. -/
@[ext] structure Exchange (ι : Type) where
  sent : ι → Nat
  counted : ι → Nat
  isOver : ι → Bool

inductive Deed (ι : Type)
  | send (x : ι) (n : Nat)
  | count (x : ι) (n : Nat)
  | finish (x : ι)

namespace Exchange

variable {ι : Type}

def start : Exchange ι := ⟨fun _ => 0, fun _ => 0, fun _ => false⟩

/-- No party counts what was not sent or sends more than it is to, and one that is over has done its
part. -/
structure Fair (plan : Plan ι) (s : Exchange ι) : Prop where
  counted : ∀ x, s.counted x ≤ s.sent (plan.peer x)
  sent : ∀ x, s.sent x ≤ plan.toSend x
  ended : ∀ x, s.isOver x = true → s.sent x = plan.toSend x ∧ plan.toCount x ≤ s.counted x

/-- Where each party is to count just what its peer is to send, a party that is over has counted it
all, and its peer has sent it all. -/
theorem Fair.over_exact {plan : Plan ι} {s : Exchange ι} (h : Fair plan s) {x : ι}
    (matched : plan.toCount x = plan.toSend (plan.peer x)) (ended : s.isOver x = true) :
    s.counted x = plan.toCount x ∧ s.sent (plan.peer x) = plan.toSend (plan.peer x) := by
  have counted := h.counted x
  have sent := h.sent (plan.peer x)
  have enough := (h.ended x ended).2
  omega

variable [DecidableEq ι]

/-- A party that is not over sends what it is to send, counts what was sent to it, and is over once
it has sent and counted all that it is to. -/
def step (plan : Plan ι) (s : Exchange ι) : Deed ι → Option (Exchange ι)
  | .send x n =>
    if s.isOver x = false ∧ s.sent x + n ≤ plan.toSend x then
      some { s with sent := Function.update s.sent x (s.sent x + n) }
    else
      none
  | .count x n =>
    if s.isOver x = false ∧ s.counted x + n ≤ s.sent (plan.peer x) then
      some { s with counted := Function.update s.counted x (s.counted x + n) }
    else
      none
  | .finish x =>
    if s.isOver x = false ∧ s.sent x = plan.toSend x ∧ plan.toCount x ≤ s.counted x then
      some { s with isOver := Function.update s.isOver x true }
    else
      none

theorem Fair.step {plan : Plan ι} {s s' : Exchange ι} (h : Fair plan s) {deed : Deed ι}
    (hs : s.step plan deed = some s') : Fair plan s' := by
  obtain ⟨counted, sent, ended⟩ := h
  cases deed with
  | send x n =>
    simp only [Exchange.step, Option.ite_none_right_eq_some, Option.some.injEq] at hs
    obtain ⟨⟨running, within⟩, rfl⟩ := hs
    have grows : ∀ y, s.sent y ≤ Function.update s.sent x (s.sent x + n) y := by
      intro y
      by_cases same : y = x
      · subst same
        simp
      · simp [same]
    refine ⟨fun y => Nat.le_trans (counted y) (grows _), fun y => ?_, fun y done => ?_⟩
    · by_cases same : y = x
      · subst same
        simpa using within
      · simpa [same] using sent y
    · have other : y ≠ x := by
        rintro rfl
        simp [running] at done
      simpa [other] using ended y done
  | count x n =>
    simp only [Exchange.step, Option.ite_none_right_eq_some, Option.some.injEq] at hs
    obtain ⟨⟨running, within⟩, rfl⟩ := hs
    refine ⟨fun y => ?_, sent, fun y done => ?_⟩
    · by_cases same : y = x
      · subst same
        simpa using within
      · simpa [same] using counted y
    · have other : y ≠ x := by
        rintro rfl
        simp [running] at done
      simpa [other] using ended y done
  | finish x =>
    simp only [Exchange.step, Option.ite_none_right_eq_some, Option.some.injEq] at hs
    obtain ⟨⟨_, whole, enough⟩, rfl⟩ := hs
    refine ⟨counted, sent, fun y done => ?_⟩
    by_cases same : y = x
    · subst same
      exact ⟨whole, enough⟩
    · exact ended y (by simpa [same] using done)

/-- What a change of one party's part of an exchange amounts to. -/
def deeds (s s' : Exchange ι) (x : ι) : List (Deed ι) :=
  if s.isOver x then
    []
  else
    .send x (s'.sent x - s.sent x) :: .count x (s'.counted x - s.counted x) ::
      if s'.isOver x then [.finish x] else []

/-- A party does some of its part, while the others do nothing. -/
structure Advance (plan : Plan ι) (s s' : Exchange ι) (x : ι) : Prop where
  others : ∀ y, y ≠ x →
    s'.sent y = s.sent y ∧ s'.counted y = s.counted y ∧ s'.isOver y = s.isOver y
  still : s.isOver x = true →
    s'.sent x = s.sent x ∧ s'.counted x = s.counted x ∧ s'.isOver x = true
  sent_le : s.sent x ≤ s'.sent x
  counted_le : s.counted x ≤ s'.counted x
  sends : s'.sent x ≤ plan.toSend x
  counts : s'.counted x ≤ s.sent (plan.peer x)
  ended : s'.isOver x = true → s'.sent x = plan.toSend x ∧ plan.toCount x ≤ s'.counted x

namespace Advance

variable {plan : Plan ι} {s s' : Exchange ι} {x : ι}

/-- The state after an advance, by what it changes. -/
theorem eq_update (h : Advance plan s s' x) :
    s' = ⟨Function.update s.sent x (s'.sent x), Function.update s.counted x (s'.counted x),
      Function.update s.isOver x (s'.isOver x)⟩ := by
  refine Exchange.ext (funext fun y => ?_) (funext fun y => ?_) (funext fun y => ?_)
  all_goals
    by_cases same : y = x
    · subst same
      simp
    · simp [same, h.others y same]

/-- What a party does are its deeds. -/
theorem run_deeds (h : Advance plan s s' x) :
    Machine.run (Exchange.step plan) s (s.deeds s' x) = some s' := by
  by_cases done : s.isOver x = true
  · obtain ⟨sent, counted, done'⟩ := h.still done
    have same : s' = s := by
      rw [h.eq_update, sent, counted, done', ← done]
      simp
    simp [deeds, done, same]
  have running : s.isOver x = false := Bool.eq_false_iff.mpr done
  let moved : Exchange ι := ⟨Function.update s.sent x (s'.sent x),
    Function.update s.counted x (s'.counted x), s.isOver⟩
  have moves : Machine.run (Exchange.step plan) s
      [.send x (s'.sent x - s.sent x), .count x (s'.counted x - s.counted x)] = some moved := by
    have grows : s.sent (plan.peer x) ≤ Function.update s.sent x (s'.sent x) (plan.peer x) := by
      by_cases same : plan.peer x = x
      · simpa [same] using h.sent_le
      · simp [same]
    simp [Machine.run, Exchange.step, running, Nat.add_sub_cancel' h.sent_le,
      Nat.add_sub_cancel' h.counted_le, h.sends, Nat.le_trans h.counts grows, moved]
  by_cases done' : s'.isOver x = true
  · have guard : moved.isOver x = false ∧ moved.sent x = plan.toSend x ∧
        plan.toCount x ≤ moved.counted x := by simpa [moved, running] using h.ended done'
    have finishes : Exchange.step plan moved (.finish x) = some s' := by
      rw [Exchange.step, if_pos guard, h.eq_update, done']
    simp only [deeds, done, done', if_true]
    change Machine.run (step plan) s ([.send x _, .count x _] ++ [.finish x]) = some s'
    exact Machine.run_concat.mpr ⟨moved, moves, finishes⟩
  · have same : moved = s' := by
      rw [h.eq_update, Bool.eq_false_iff.mpr done', ← running]
      simp [moved]
    simpa [deeds, done, done', same] using moves

end Advance

theorem Fair.of_run {plan : Plan ι} {s : Exchange ι} {deeds : List (Deed ι)}
    (reach : Machine.run (Exchange.step plan) start deeds = some s) : Fair plan s :=
  Machine.run_invariant (Fair plan) (fun _ _ _ h hs => h.step hs)
    ⟨fun _ => Nat.le_refl _, fun _ => Nat.zero_le _, by simp [start]⟩ reach

end Exchange

end NetTester

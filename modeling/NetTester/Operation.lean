import Mathlib.Data.List.Basic

/-- An asynchronous operation: what its handler captured, and the result that is queued for the
handler once the operation has completed. -/
structure Operation (κ ρ : Type) where
  handler : κ
  result : Option ρ
deriving DecidableEq

namespace Operation

variable {κ ρ : Type}

def initiate (handler : κ) : Operation κ ρ := ⟨handler, none⟩

/-- Queue a result for the operation at the index, if it is still pending and may end so. -/
def complete (valid : κ → Prop) [DecidablePred valid] (result : ρ)
    (operations : List (Operation κ ρ)) (i : Nat) : Option (List (Operation κ ρ)) :=
  match operations[i]? with
  | some ⟨handler, none⟩ =>
    if valid handler then some (operations.set i ⟨handler, some result⟩) else none
  | _ => none

/-- Take a completed operation off the list: its handler is about to be invoked. -/
def dequeue (operations : List (Operation κ ρ)) (i : Nat) :
    Option (κ × ρ × List (Operation κ ρ)) :=
  match operations[i]? with
  | some ⟨handler, some result⟩ => some (handler, result, operations.eraseIdx i)
  | _ => none

/-- Every pending operation ends with the result, as under a cancellation; an operation whose
result is already queued keeps it. -/
def settle (result : ρ) (operations : List (Operation κ ρ)) : List (Operation κ ρ) :=
  operations.map fun operation => { operation with result := some (operation.result.getD result) }

@[simp] theorem settle_nil (result : ρ) : settle result ([] : List (Operation κ ρ)) = [] := rfl

theorem complete_eq_some {valid : κ → Prop} [DecidablePred valid] {result : ρ}
    {operations after : List (Operation κ ρ)} {i : Nat}
    (h : complete valid result operations i = some after) :
    ∃ handler, operations[i]? = some ⟨handler, none⟩ ∧ valid handler ∧
      after = operations.set i ⟨handler, some result⟩ := by
  unfold complete at h
  split at h
  next handler hi =>
    split at h
    next hv => exact ⟨handler, hi, hv, (Option.some.inj h).symm⟩
    next => simp at h
  next => simp at h

theorem dequeue_eq_some {operations after : List (Operation κ ρ)} {i : Nat} {handler : κ}
    {result : ρ} (h : dequeue operations i = some (handler, result, after)) :
    operations[i]? = some ⟨handler, some result⟩ ∧ after = operations.eraseIdx i := by
  unfold dequeue at h
  split at h
  next handler' result' hi =>
    cases Option.some.inj h
    exact ⟨hi, rfl⟩
  next => simp at h

theorem ne_nil_of_dequeue {operations after : List (Operation κ ρ)} {i : Nat} {handler : κ}
    {result : ρ} (h : dequeue operations i = some (handler, result, after)) : operations ≠ [] :=
  List.ne_nil_of_mem (List.mem_of_getElem? (dequeue_eq_some h).1)

@[simp] theorem complete_nil (valid : κ → Prop) [DecidablePred valid] (result : ρ) (i : Nat) :
    complete valid result [] i = none := rfl

@[simp] theorem dequeue_nil (i : Nat) : dequeue ([] : List (Operation κ ρ)) i = none := rfl

/-- With at most one operation outstanding, the one that completes is the whole list. -/
theorem complete_single {valid : κ → Prop} [DecidablePred valid] {result : ρ}
    {operations after : List (Operation κ ρ)} {i : Nat} (single : operations.length ≤ 1)
    (h : complete valid result operations i = some after) :
    i = 0 ∧ ∃ handler, operations = [⟨handler, none⟩] ∧ valid handler ∧
      after = [⟨handler, some result⟩] := by
  obtain ⟨handler, hi, hv, rfl⟩ := complete_eq_some h
  obtain ⟨bound, eq⟩ := List.getElem?_eq_some_iff.mp hi
  have first : i = 0 := by omega
  subst first
  obtain ⟨operation, rfl⟩ := List.length_eq_one_iff.mp (by omega : operations.length = 1)
  obtain rfl : operation = ⟨handler, none⟩ := eq
  exact ⟨rfl, handler, rfl, hv, rfl⟩

/-- With at most one operation outstanding, the one whose handler is invoked is the whole list. -/
theorem dequeue_single {operations after : List (Operation κ ρ)} {i : Nat} {handler : κ}
    {result : ρ} (single : operations.length ≤ 1)
    (h : dequeue operations i = some (handler, result, after)) :
    i = 0 ∧ operations = [⟨handler, some result⟩] ∧ after = [] := by
  obtain ⟨hi, rfl⟩ := dequeue_eq_some h
  obtain ⟨bound, eq⟩ := List.getElem?_eq_some_iff.mp hi
  have first : i = 0 := by omega
  subst first
  obtain ⟨operation, rfl⟩ := List.length_eq_one_iff.mp (by omega : operations.length = 1)
  obtain rfl : operation = ⟨handler, some result⟩ := eq
  exact ⟨rfl, rfl, rfl⟩

/-- The operation that was initiated last can complete. -/
theorem complete_last {valid : κ → Prop} [DecidablePred valid] {handler : κ} {result : ρ}
    (operations : List (Operation κ ρ)) (h : valid handler) :
    complete valid result (operations ++ [initiate handler]) operations.length =
      some (operations ++ [⟨handler, some result⟩]) := by
  simp [complete, initiate, h]

/-- A completed operation of the list can have its handler invoked. -/
theorem dequeue_of_mem {operations : List (Operation κ ρ)} {operation : Operation κ ρ}
    {result : ρ} (h : operation ∈ operations) (hr : operation.result = some result) :
    ∃ i, dequeue operations i = some (operation.handler, result, operations.eraseIdx i) := by
  obtain ⟨i, hi⟩ := List.mem_iff_getElem?.mp h
  obtain ⟨handler, _⟩ := operation
  cases hr
  exact ⟨i, by simp [dequeue, hi]⟩

end Operation

import Mathlib.Data.List.Induction

namespace Machine

variable {σ α : Type}

/-- The state that a partial step function reaches along a list of events. -/
def run (step : σ → α → Option σ) : σ → List α → Option σ
  | s, [] => some s
  | s, a :: as => (step s a).bind fun t => run step t as

/-- A condition on the event and on the state before it holds at every step of the run. -/
def Along (step : σ → α → Option σ) (condition : σ → α → Prop) : σ → List α → Prop
  | _, [] => True
  | s, a :: as => condition s a ∧ ∀ t, step s a = some t → Along step condition t as

/-- What the steps of a run yield, read off the event and the state before it. -/
def collect {β : Type} (step : σ → α → Option σ) (yields : σ → α → List β) : σ → List α → List β
  | _, [] => []
  | s, a :: as => yields s a ++ match step s a with
    | some t => collect step yields t as
    | none => []

@[simp] theorem run_nil (step : σ → α → Option σ) (s : σ) : run step s [] = some s := rfl

theorem run_cons_iff {step : σ → α → Option σ} {s u : σ} {a : α} {as : List α} :
    run step s (a :: as) = some u ↔ ∃ t, step s a = some t ∧ run step t as = some u := by
  simp only [run, Option.bind_eq_some_iff]

theorem run_append {step : σ → α → Option σ} {s u : σ} {as bs : List α} :
    run step s (as ++ bs) = some u ↔ ∃ t, run step s as = some t ∧ run step t bs = some u := by
  induction as generalizing s with
  | nil => simp
  | cons a as ih =>
    simp only [List.cons_append, run_cons_iff, ih]
    constructor
    · rintro ⟨r, ha, t, has, hbs⟩
      exact ⟨t, ⟨r, ha, has⟩, hbs⟩
    · rintro ⟨t, ⟨r, ha, has⟩, hbs⟩
      exact ⟨r, ha, t, has, hbs⟩

theorem run_concat {step : σ → α → Option σ} {s u : σ} {as : List α} {a : α} :
    run step s (as ++ [a]) = some u ↔ ∃ t, run step s as = some t ∧ step t a = some u := by
  simp only [run_append, run_cons_iff, run_nil, Option.some.injEq, exists_eq_right]

/-- What holds of every state that a run reaches, with an observed value, holds of the one that the
run reaches when it is evaluated. -/
theorem exists_run {β : Type} {step : σ → α → Option σ} {P : σ → Prop} {s : σ} {as : List α}
    (observe : σ → β) {b : β} (h : (run step s as).map observe = some b)
    (holds : ∀ t, run step s as = some t → observe t = b → P t) :
    ∃ t, run step s as = some t ∧ P t := by
  obtain ⟨t, reach, observed⟩ := Option.map_eq_some_iff.mp h
  exact ⟨t, reach, holds t reach observed⟩

/-- Run induction: a relation between the events so far and the state reached. -/
theorem run_induction {step : σ → α → Option σ} {s : σ} (holds : List α → σ → Prop)
    (start : holds [] s)
    (next : ∀ as t a u, run step s as = some t → holds as t → step t a = some u →
      holds (as ++ [a]) u) {as : List α} {t : σ} (reach : run step s as = some t) :
    holds as t := by
  induction as using List.reverseRecOn generalizing t with
  | nil => cases Option.some.inj reach; exact start
  | append_singleton as a ih =>
    obtain ⟨r, hr, ha⟩ := run_concat.mp reach
    exact next as r a t hr (ih hr) ha

theorem run_invariant {step : σ → α → Option σ} (holds : σ → Prop)
    (next : ∀ t a u, holds t → step t a = some u → holds u) {s t : σ} {as : List α}
    (start : holds s) (reach : run step s as = some t) : holds t :=
  run_induction (fun _ => holds) start (fun _ t a u _ h ha => next t a u h ha) reach

/-- Where what each step yields leads another machine, under an invariant, from the view of the
state before it to the view of the one after it, so does what a run yields. -/
theorem run_collect {τ β : Type} {step : σ → α → Option σ} {spec : τ → β → Option τ}
    {yields : σ → α → List β} (view : σ → τ) (holds : σ → Prop)
    (next : ∀ s a t, holds s → step s a = some t →
      holds t ∧ run spec (view s) (yields s a) = some (view t))
    {s t : σ} {as : List α} (start : holds s) (reach : run step s as = some t) :
    run spec (view s) (collect step yields s as) = some (view t) := by
  induction as generalizing s with
  | nil =>
    cases Option.some.inj reach
    rfl
  | cons a as ih =>
    obtain ⟨r, ha, reach⟩ := run_cons_iff.mp reach
    obtain ⟨after, first⟩ := next s a r start ha
    simp only [collect, ha]
    exact run_append.mpr ⟨view r, first, ih after reach⟩

instance decidableAlong {step : σ → α → Option σ} {condition : σ → α → Prop}
    [∀ s a, Decidable (condition s a)] : ∀ s as, Decidable (Along step condition s as)
  | _, [] => .isTrue trivial
  | s, a :: as =>
    match h : step s a with
    | none => decidable_of_iff (condition s a) (by simp [Along, h])
    | some t =>
      have : Decidable (Along step condition t as) := decidableAlong t as
      decidable_of_iff (condition s a ∧ Along step condition t as) (by simp [Along, h])

/-- A condition on the events alone, along a run, is one on each of them. -/
theorem forall_of_along {step : σ → α → Option σ} {condition : α → Prop} {s t : σ} {as : List α}
    (along : Along step (fun _ => condition) s as) (reach : run step s as = some t) :
    ∀ a ∈ as, condition a := by
  induction as generalizing s with
  | nil => simp
  | cons a as ih =>
    obtain ⟨r, ha, reach⟩ := run_cons_iff.mp reach
    exact List.forall_mem_cons.mpr ⟨along.1, ih (along.2 r ha) reach⟩

theorem along_concat {step : σ → α → Option σ} {condition : σ → α → Prop} {s : σ}
    {as : List α} {a : α} : Along step condition s (as ++ [a]) ↔
      Along step condition s as ∧ ∀ t, run step s as = some t → condition t a := by
  induction as generalizing s with
  | nil => simp [Along]
  | cons b as ih =>
    simp only [List.cons_append, Along, ih, run_cons_iff]
    constructor
    · rintro ⟨first, rest⟩
      refine ⟨⟨first, fun t ht => (rest t ht).1⟩, fun t ⟨r, hr, has⟩ => (rest r hr).2 t has⟩
    · rintro ⟨⟨first, rest⟩, last⟩
      exact ⟨first, fun r hr => ⟨rest r hr, fun t has => last t ⟨r, hr, has⟩⟩⟩

/-- Where a measure can always be lowered under the condition, a run that keeps to it comes to an
end. -/
theorem exists_run_of_measure {step : σ → α → Option σ} {condition : σ → α → Prop}
    {measure : σ → Nat} {holds done : σ → Prop}
    (next : ∀ s, holds s → ¬done s → ∃ a t, condition s a ∧ step s a = some t ∧ holds t ∧
      measure t < measure s) {s : σ} (start : holds s) :
    ∃ as t, Along step condition s as ∧ run step s as = some t ∧ done t ∧
      as.length ≤ measure s := by
  induction hm : measure s using Nat.strongRecOn generalizing s with
  | ind m ih =>
    by_cases finished : done s
    · exact ⟨[], s, trivial, rfl, finished, Nat.zero_le _⟩
    · obtain ⟨a, t, allowed, ha, after, lower⟩ := next s start finished
      obtain ⟨as, u, along, reach, finished, short⟩ := ih _ (hm ▸ lower) after rfl
      refine ⟨a :: as, u, ⟨allowed, fun r hr => ?_⟩, run_cons_iff.mpr ⟨t, ha, reach⟩, finished, ?_⟩
      · cases Option.some.inj (ha.symm.trans hr)
        exact along
      · simp only [List.length_cons]
        omega

/-- What a run yields goes on from what its beginning yields. -/
theorem collect_append {β : Type} {step : σ → α → Option σ} {yields : σ → α → List β} {s t : σ}
    {as bs : List α} (reach : run step s as = some t) :
    collect step yields s (as ++ bs) = collect step yields s as ++ collect step yields t bs := by
  induction as generalizing s with
  | nil =>
    cases Option.some.inj reach
    rfl
  | cons a as ih =>
    obtain ⟨r, hr, reach⟩ := run_cons_iff.mp reach
    simp only [List.cons_append, collect, hr, ih reach, List.append_assoc]

theorem collect_concat {β : Type} {step : σ → α → Option σ} {yields : σ → α → List β} {s t : σ}
    {as : List α} {a : α} (reach : run step s as = some t) :
    collect step yields s (as ++ [a]) = collect step yields s as ++ yields t a := by
  rw [collect_append reach]
  simp only [collect]
  split <;> simp

end Machine

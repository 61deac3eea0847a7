import NetTester.ApplicationMoves

namespace NetTester

namespace Application

/-- A signal that reaches the process finds the signal sets in place of the first handler. -/
def Watched (a : Application) : ApplicationEvent → Prop
  | .signal _ => a.sessions ≠ []
  | _ => True

/-- The exit was requested by a session, which has its failure on record. -/
def Accounted (a : Application) : Prop :=
  a.exitRequested = true → ∃ (j : Nat) (s : Session), a.sessions[j]? = some s ∧ s.failure ≠ none

/-- The exit was requested before any handler could run, so none ever does. -/
structure Skipped (a : Application) : Prop where
  exit : a.exitRequested = true
  threads : ∀ k, a.threads k ≠ .polling
  calls : ∀ s ∈ a.sessions, s.calls = []

theorem firstFailure_eq_none {sessions : List Session} :
    firstFailure sessions = none ↔ ∀ s ∈ sessions, s.failure = none := by
  have fold : ∀ first : Option ErrorCode,
      sessions.foldl (fun first s => first.or s.finalize) first = none ↔
        first = none ∧ ∀ s ∈ sessions, s.failure = none := by
    induction sessions with
    | nil => simp
    | cons s rest ih =>
      intro first
      rw [List.foldl_cons, ih, Option.or_eq_none_iff, List.forall_mem_cons, and_assoc]
      rfl
  exact (fold none).trans (by simp)

variable {cs : List SessionConfiguration} {n : Nat} {a a' : Application}
  {event : ApplicationEvent}

/-- The application returns after the joins, with every failure clear. -/
theorem returned_cases {cores : Nat} {events : List ApplicationEvent}
    (reach : Machine.run step (create cs cores) events = some a)
    (returned : a.outcome = some .returned) :
    a.started = true ∧ (∀ k < a.concurrency, a.threads k = .left) ∧
      ∀ s ∈ a.sessions, s.failure = none := by
  refine Machine.run_invariant (fun a => a.outcome = some .returned → a.started = true ∧
    (∀ k < a.concurrency, a.threads k = .left) ∧ ∀ s ∈ a.sessions, s.failure = none) ?_
    (by simp [create]) reach returned
  intro a event a' _ hs returned
  obtain ⟨running, move⟩ := step_cases hs
  clear hs
  have pending : a.outcome = some .returned → a'.started = true ∧
      (∀ k < a'.concurrency, a'.threads k = .left) ∧ ∀ s ∈ a'.sessions, s.failure = none := by
    simp [running]
  cases move with
  | signal m =>
    apply pending
    unfold onSignal at returned
    split at returned
    next => exact returned
    next =>
      split at returned
      next => simp at returned
      next => exact returned
  | createSession draws now c rest next => exact pending returned
  | createThrows event creation => simp at returned
  | startThreads created => exact pending returned
  | complete j t c s s' found hs => exact pending returned
  | check k started bound checking => exact pending returned
  | poll k polling => exact pending returned
  | run k j t handler s s' polling own found hs => exact pending returned
  | joinThreads started left =>
    refine ⟨started, left, firstFailure_eq_none.mp ?_⟩
    simp only [joinThreads, Option.some.injEq] at returned
    change firstFailure a.sessions = none
    cases hf : firstFailure a.sessions with
    | none => rfl
    | some f => simp [hf] at returned

theorem Accounted.setSession (h : Accounted a) (consistent : Consistent cs n a)
    (accepted : ∀ c ∈ cs, Accepted c) {j t : Nat} {e : Event} {s s' : Session}
    (found : a.sessions[j]? = some s) (hs : s.step (t, e) = some s') :
    Accounted (a.setSession j s') := by
  have sound := consistent.sound accepted found
  have kept := (Session.step_frame sound.tidy hs).reports.failure
  have own : (a.setSession j s').sessions[j]? = some s' := by
    have bound := (List.getElem?_eq_some_iff.mp found).1
    simp [Application.setSession, bound]
  intro exit
  simp only [Application.setSession, Bool.or_eq_true] at exit
  rcases exit with exit | exit
  · obtain ⟨i, u, before, failed⟩ := h exit
    by_cases same : i = j
    · subst same
      obtain rfl := Option.some.inj (found.symm.trans before)
      exact ⟨i, s', own, kept failed⟩
    · refine ⟨i, u, ?_, failed⟩
      simp only [Application.setSession]
      rw [List.getElem?_set_ne (Ne.symm same)]
      exact before
  · rw [(sound.step hs).ending.exit] at exit
    exact ⟨j, s', own, fun clear => by simp [clear] at exit⟩

theorem Accounted.step (h : Accounted a) (consistent : Consistent cs n a)
    (accepted : ∀ c ∈ cs, Accepted c) (watched : Watched a event) (hs : a.step event = some a') :
    Accounted a' := by
  obtain ⟨_, move⟩ := step_cases hs
  clear hs
  cases move with
  | signal m =>
    have watched : a.sessions ≠ [] := watched
    unfold onSignal
    rw [if_pos watched]
    exact h
  | createSession draws now c rest next =>
    intro exit
    obtain ⟨i, u, before, failed⟩ := h exit
    have bound := (List.getElem?_eq_some_iff.mp before).1
    exact ⟨i, u, by rw [List.getElem?_append_left bound, before], failed⟩
  | createThrows event creation => exact h
  | startThreads created => exact h
  | complete j t c s s' found hs => exact h.setSession consistent accepted found hs
  | check k started bound checking => exact h
  | poll k polling => exact h
  | run k j t handler s s' polling own found hs =>
    exact h.setSession consistent accepted found hs
  | joinThreads started left => exact h

theorem Skipped.step (h : Skipped a) (hs : a.step event = some a') : Skipped a' := by
  obtain ⟨_, move⟩ := step_cases hs
  clear hs
  cases move with
  | signal m =>
    unfold onSignal
    split
    next => exact ⟨h.exit, h.threads, h.calls⟩
    next =>
      split
      next => exact ⟨h.exit, h.threads, h.calls⟩
      next => exact ⟨rfl, h.threads, h.calls⟩
  | createSession draws now c rest next =>
    refine ⟨h.exit, h.threads, fun s member => ?_⟩
    rcases List.mem_append.mp member with old | new
    · exact h.calls s old
    · rw [List.mem_singleton.mp new]
      rfl
  | createThrows event creation => exact ⟨h.exit, h.threads, h.calls⟩
  | startThreads created => exact ⟨h.exit, h.threads, h.calls⟩
  | complete j t c s s' found hs =>
    refine ⟨by simp [setSession, h.exit], h.threads, fun u member => ?_⟩
    rcases List.mem_or_eq_of_mem_set member with old | rfl
    · exact h.calls u old
    · rw [Session.complete_calls hs]
      exact h.calls s (List.mem_of_getElem? found)
  | check k started bound checking =>
    refine ⟨h.exit, fun i => ?_, h.calls⟩
    simp only [check, h.exit, Function.update_apply]
    split
    next => simp
    next => exact h.threads i
  | poll k polling => exact absurd polling (h.threads k)
  | run k j t handler s s' polling => exact absurd polling (h.threads k)
  | joinThreads started left => exact ⟨h.exit, h.threads, h.calls⟩

/-- An early signal ends the process, or has the threads leave before they poll. -/
theorem skipped_of_early (consistent : Consistent cs n a) (some' : cs ≠ [])
    (early : ¬Watched a event) (hs : a.step event = some a') :
    a'.outcome = some .killed ∨ Skipped a' := by
  obtain ⟨_, move⟩ := step_cases hs
  clear hs
  cases move with
  | signal m =>
    have none : a.sessions = [] := of_not_not early
    have unstarted : a.started = false := by
      by_contra started
      have created := consistent.created (by simpa using started)
      rw [consistent.configurations, none] at created
      exact some' created
    unfold onSignal
    rw [if_neg (by simp [none])]
    split
    next => exact .inl rfl
    next =>
      refine .inr ⟨rfl, fun k => ?_, by simp [none]⟩
      simp [(consistent.unstarted unstarted k).1]
  | createThrows event creation =>
    rcases creation with rfl | ⟨draws, now, rfl⟩ <;> exact absurd trivial early
  | _ => exact absurd trivial early

theorem run_cases (accepted : ∀ c ∈ cs, Accepted c) {cores : Nat} {events : List ApplicationEvent}
    (reach : Machine.run step (create cs cores) events = some a) :
    (Machine.Along step Watched (create cs cores) events → Accounted a) ∧
      (cs ≠ [] → ¬Machine.Along step Watched (create cs cores) events →
        a.outcome = some .killed ∨ Skipped a) := by
  refine Machine.run_induction (fun events a =>
    (Machine.Along step Watched (create cs cores) events → Accounted a) ∧
      (cs ≠ [] → ¬Machine.Along step Watched (create cs cores) events →
        a.outcome = some .killed ∨ Skipped a)) ?_ ?_ reach
  · exact ⟨fun _ => by simp [Accounted, create], fun _ early => absurd trivial early⟩
  rintro events a event a' reach ⟨accounted, skipped⟩ hs
  have consistent := Consistent.of_run reach
  refine ⟨fun along => ?_, fun some' early => ?_⟩
  · obtain ⟨before, last⟩ := Machine.along_concat.mp along
    exact (accounted before).step consistent accepted (last a reach) hs
  · by_cases before : Machine.Along step Watched (create cs cores) events
    · refine skipped_of_early consistent some' (fun watched => early ?_) hs
      refine Machine.along_concat.mpr ⟨before, fun b hb => ?_⟩
      obtain rfl : a = b := Option.some.inj (reach.symm.trans hb)
      exact watched
    · rcases skipped some' before with killed | skipped
      · simp [(step_cases hs).1] at killed
      · exact .inr (skipped.step hs)

end Application

open Application

/-- When the application returns it has run every configured session to its end exactly if no signal
came before the first session was there to watch for it. -/
theorem returned_finished_iff {cs : List SessionConfiguration} (accepted : ∀ c ∈ cs, Accepted c)
    {cores : Nat} {events : List ApplicationEvent} {a : Application}
    (reach : Machine.run Application.step (.create cs cores) events = some a)
    (returned : a.outcome = some .returned) :
    a.sessions.map (·.configuration) = cs ∧
      ((∀ s ∈ a.sessions, Call.onFinish ∈ s.calls) ↔
        cs = [] ∨ Machine.Along Application.step Watched (.create cs cores) events) := by
  have consistent := Consistent.of_run reach
  obtain ⟨started, left, clear⟩ := returned_cases reach returned
  obtain ⟨accounted, skipped⟩ := run_cases accepted reach
  have created : cs.length ≤ a.sessions.length := by
    have created := consistent.created started
    rw [consistent.configurations] at created
    exact List.drop_eq_nil_iff.mp created
  refine ⟨List.ext_getElem? fun j => ?_, fun finished => ?_, fun watched s member => ?_⟩
  · rw [List.getElem?_map]
    cases found : a.sessions[j]? with
    | none =>
      have beyond := List.getElem?_eq_none_iff.mp found
      rw [List.getElem?_eq_none (by omega)]
      rfl
    | some s =>
      obtain ⟨c, draws, now, events, hc, reach⟩ := consistent.reaches j s found
      have same := (Sound.of_reaches (accepted c (List.mem_of_getElem? hc)) reach).2.1
      rw [hc, Option.map_some, same]
  · by_contra early
    rw [not_or] at early
    rcases skipped early.1 early.2 with killed | silent
    · simp [killed] at returned
    · obtain ⟨c, rest, rfl⟩ := List.exists_cons_of_ne_nil early.1
      obtain ⟨s, others, sessions⟩ := List.exists_cons_of_ne_nil
        (List.ne_nil_of_length_pos (Nat.lt_of_lt_of_le (Nat.succ_pos _) created))
      have member : s ∈ a.sessions := by simp [sessions]
      have finish := finished s member
      simp [silent.calls s member] at finish
  · obtain ⟨j, found⟩ := List.mem_iff_getElem?.mp member
    have sound := consistent.sound accepted found
    have nonempty : cs ≠ [] := by
      rintro rfl
      obtain ⟨c, _, _, _, hc, _⟩ := consistent.reaches j s found
      simp at hc
    have exit : a.exitRequested = false := by
      by_contra exit
      obtain ⟨i, u, hu, failed⟩ := accounted (watched.resolve_left nonempty) (by simpa using exit)
      exact failed (clear u (List.mem_of_getElem? hu))
    have positive : 0 < a.concurrency := by
      rw [consistent.concurrency, getConcurrency]
      split <;> omega
    have stopped := (consistent.left _ (left _ (Nat.mod_lt j positive))).resolve_left
      (by simp [exit])
    have idle := hasWork_eq_false.mp (consistent.stopped _ stopped) j s found rfl
    have signals : s.signals = [] := by
      simp only [Session.isIdle, Bool.and_eq_true, List.isEmpty_iff] at idle
      exact idle.2
    have done : s.isDone = true := by
      by_contra undone
      exact sound.ending.watching (by simpa using undone) (clear s member) signals
    have finishes := sound.ending.finishes
    rw [if_pos done] at finishes
    exact List.count_pos_iff.mp (by omega)

/-- A turn of the loop of the first thread that runs a handler of the first session. -/
def turn (handler : Handler) : List ApplicationEvent :=
  [.check 0, .pollOne 0 (some (0, 0, handler))]

/-- One datagram session that sends a byte, on one thread. -/
def sendByte : List ApplicationEvent :=
  [.createSession (fun _ => 0) 0, .startThreads] ++ turn (.posted 0) ++
    [.complete 0 0 (.sendSlice 0)] ++ turn (.sendThrottle 0) ++
    [.complete 0 0 (.sent 0 (.ok 1))] ++ turn (.onSend 0) ++ turn (.onTimeout 0) ++
    turn (.onSignal 0) ++ [.check 0, .joinThreads]

theorem returned_finished_sendByte : ∃ a, Machine.run Application.step (.create
    [{ defaultConfiguration "127.0.0.1:1234" ⟨1, .iec, by decide⟩ with
      protocol := .udp, direction := .tx }] 0) sendByte = some a ∧
    ∀ s ∈ a.sessions, Call.onFinish ∈ s.calls := by
  refine Machine.exists_run (fun a => a.outcome) (b := some .returned) (by decide +kernel) ?_
  intro a reach returned
  refine ((returned_finished_iff ?_ reach returned).2).mpr (.inr ?_)
  · exact List.forall_mem_singleton.mpr (accepted_iff.mpr (by decide))
  · simp [Machine.Along, sendByte, turn, Application.Watched]

/-- A signal that comes before the first session ends a run that reports no failure. -/
theorem interrupted_before_session : ¬∀ (cs : List SessionConfiguration)
    (_ : ∀ c ∈ cs, Accepted c) (cores : Nat) (events : List ApplicationEvent) (a : Application)
    (_ : Machine.run Application.step (.create cs cores) events = some a)
    (_ : a.outcome = some .returned), ∀ s ∈ a.sessions, Call.onFinish ∈ s.calls := by
  intro claim
  obtain ⟨a, reach, returned, calls⟩ : ∃ a, Machine.run Application.step
      (.create [defaultConfiguration "127.0.0.1:1234" ⟨1, .iec, by decide⟩] 0)
      [.signal .sigint, .createSession (fun _ => 0) 0, .startThreads, .check 0, .joinThreads] =
        some a ∧ a.outcome = some .returned ∧ a.sessions.map (·.calls) = [[]] := by
    refine Machine.exists_run (fun a => (a.outcome, a.sessions.map (·.calls)))
      (b := (some .returned, [[]])) (by decide +kernel) ?_
    intro a reach observed
    simpa only [Prod.mk.injEq] using observed
  have finished := claim _ (List.forall_mem_singleton.mpr (accepted_default _ (by decide))) 0 _ a
    reach returned
  obtain ⟨s, sessions, none⟩ := List.map_eq_singleton_iff.mp calls
  have finish := finished s (by simp [sessions])
  simp [none] at finish

end NetTester

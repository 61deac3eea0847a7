import NetTester.Application

namespace NetTester

/-- A completion queues a result and makes no call. -/
theorem Session.complete_calls {s s' : Session} {t : Nat} {c : Completion}
    (hs : s.step (t, .complete c) = some s') : s'.calls = s.calls := by
  obtain ⟨_, _, hs⟩ := step_eq_some hs
  cases c with
  | opened i failure =>
    obtain ⟨opens, _, rfl⟩ := Option.map_eq_some_iff.mp hs
    rfl
  | received i r =>
    obtain ⟨_, _, rfl⟩ := completeReceive_frame hs
    rfl
  | sent i r =>
    obtain ⟨_, rfl⟩ := completeSend_frame hs
    rfl
  | receiveSlice i =>
    obtain ⟨throttle, _, rfl⟩ := Option.map_eq_some_iff.mp hs
    rfl
  | sendSlice i =>
    obtain ⟨throttle, _, rfl⟩ := Option.map_eq_some_iff.mp hs
    rfl
  | timedOut i =>
    obtain ⟨after, _, rfl⟩ := Option.map_eq_some_iff.mp hs
    rfl
  | signalled n =>
    cases Option.some.inj hs
    rfl

namespace Application

/-- What one event does to the application, with what the state before it was. -/
inductive StepCases (a : Application) : ApplicationEvent → Application → Prop
  | signal (n : Signal) : StepCases a (.signal n) (a.onSignal n)
  | createSession (draws : Nat → Nat) (now : Nat) (c : SessionConfiguration)
      (rest : List SessionConfiguration) (next : a.configurations = c :: rest) :
      StepCases a (.createSession draws now)
        { a with configurations := rest, sessions := a.sessions ++ [.create c draws now] }
  | createThrows (event : ApplicationEvent)
      (creation : event = .createThrows ∨ ∃ draws now, event = .createSession draws now) :
      StepCases a event { a with outcome := some .threw }
  | startThreads (created : a.configurations = []) (unstarted : a.started = false) :
      StepCases a .startThreads { a with started := true }
  | complete (j t : Nat) (c : Completion) (s s' : Session) (found : a.sessions[j]? = some s)
      (hs : s.step (t, .complete c) = some s') : StepCases a (.complete j t c) (a.setSession j s')
  | check (k : Nat) (started : a.started = true) (bound : k < a.concurrency)
      (checking : a.threads k = .checking) : StepCases a (.check k) (a.check k)
  | poll (k : Nat) (polling : a.threads k = .polling) : StepCases a (.pollOne k none) (a.polled k)
  | run (k j t : Nat) (h : Handler) (s s' : Session) (polling : a.threads k = .polling)
      (own : j % a.concurrency = k) (found : a.sessions[j]? = some s)
      (hs : s.step (t, .invoke h) = some s') :
      StepCases a (.pollOne k (some (j, t, h))) ((a.setSession j s').polled k)
  | joinThreads (started : a.started = true) (left : ∀ k < a.concurrency, a.threads k = .left) :
      StepCases a .joinThreads a.joinThreads

theorem stepSession_eq_some {a a' : Application} {j t : Nat} {e : Event}
    (h : a.stepSession j t e = some a') : ∃ s s', a.sessions[j]? = some s ∧
      s.step (t, e) = some s' ∧ a' = a.setSession j s' := by
  obtain ⟨s, found, h⟩ := Option.bind_eq_some_iff.mp h
  obtain ⟨s', hs, rfl⟩ := Option.map_eq_some_iff.mp h
  exact ⟨s, s', found, hs, rfl⟩

theorem step_cases {a a' : Application} {event : ApplicationEvent} (h : a.step event = some a') :
    a.outcome = none ∧ StepCases a event a' := by
  unfold step at h
  split at h
  next running =>
    refine ⟨running, ?_⟩
    cases event with
    | signal n =>
      cases Option.some.inj h
      exact .signal n
    | createSession draws now =>
      simp only [dispatch, createSession] at h
      split at h
      next => simp at h
      next c rest next =>
        split at h
        next =>
          cases Option.some.inj h
          exact .createThrows _ (.inr ⟨draws, now, rfl⟩)
        next =>
          cases Option.some.inj h
          exact .createSession draws now c rest next
    | createThrows =>
      simp only [dispatch] at h
      split at h
      next =>
        cases Option.some.inj h
        exact .createThrows _ (.inl rfl)
      next => simp at h
    | startThreads =>
      simp only [dispatch] at h
      split at h
      next ready =>
        cases Option.some.inj h
        exact .startThreads ready.1 ready.2
      next => simp at h
    | complete j t c =>
      simp only [dispatch] at h
      split at h
      next =>
        obtain ⟨s, s', found, hs, rfl⟩ := stepSession_eq_some h
        exact .complete j t c s s' found hs
      next => simp at h
    | check k =>
      simp only [dispatch] at h
      split at h
      next ready =>
        cases Option.some.inj h
        exact .check k ready.1 ready.2.1 ready.2.2
      next => simp at h
    | pollOne k handler =>
      cases handler with
      | none =>
        simp only [dispatch] at h
        split at h
        next polling =>
          cases Option.some.inj h
          exact .poll k polling
        next => simp at h
      | some handler =>
        obtain ⟨j, t, handler⟩ := handler
        simp only [dispatch] at h
        split at h
        next ready =>
          obtain ⟨b, moved, rfl⟩ := Option.map_eq_some_iff.mp h
          obtain ⟨s, s', found, hs, rfl⟩ := stepSession_eq_some moved
          exact .run k j t handler s s' ready.1 ready.2 found hs
        next => simp at h
    | joinThreads =>
      simp only [dispatch] at h
      split at h
      next ready =>
        cases Option.some.inj h
        exact .joinThreads ready.1 ready.2
      next => simp at h
  next => simp at h

/-- A signal is noted, requests the exit, or kills, and leaves the rest of the application alone. -/
structure SignalFrame (a a' : Application) : Prop where
  sessions : a'.sessions = a.sessions
  threads : a'.threads = a.threads
  exit : a.exitRequested = true → a'.exitRequested = true
  outcome : a'.outcome = a.outcome ∨ a'.outcome = some .killed

theorem onSignal_frame (m : Signal) (a : Application) : SignalFrame a (a.onSignal m) := by
  unfold onSignal
  split
  next => exact ⟨rfl, rfl, fun exit => exit, .inl rfl⟩
  next =>
    split
    next => exact ⟨rfl, rfl, fun exit => exit, .inr rfl⟩
    next => exact ⟨rfl, rfl, fun _ => rfl, .inl rfl⟩

/-- A service without work has idle sessions only. -/
theorem hasWork_eq_false {a : Application} {k : Nat} : a.hasWork k = false ↔
    ∀ j s, a.sessions[j]? = some s → j % a.concurrency = k → s.isIdle = true := by
  simp only [hasWork, List.any_eq_false, List.mem_zipIdx_iff_getElem?, Prod.forall]
  constructor
  · intro none j s found own
    simpa [own] using none s j found
  · intro idle s j found
    have := idle j s found
    simpa using this

/-- What holds of a replaced session and of all the others holds of every session. -/
theorem setSession_getElem? {a : Application} {j i : Nat} {s' u : Session}
    (found : (a.setSession j s').sessions[i]? = some u) :
    i = j ∧ u = s' ∨ i ≠ j ∧ a.sessions[i]? = some u := by
  simp only [setSession, List.getElem?_set] at found
  split at found
  next same =>
    split at found
    next => exact .inl ⟨same.symm, (Option.some.inj found).symm⟩
    next => simp at found
  next other => exact .inr ⟨fun same => other same.symm, found⟩

/-- The invariant of the application. Each of its sessions runs as it would alone. -/
structure Consistent (cs : List SessionConfiguration) (n : Nat) (a : Application) : Prop where
  concurrency : a.concurrency = n
  configurations : a.configurations = cs.drop a.sessions.length
  reaches : ∀ (j : Nat) (s : Session), a.sessions[j]? = some s →
    ∃ (c : SessionConfiguration) (draws : Nat → Nat) (now : Nat) (events : List (Nat × Event)),
      cs[j]? = some c ∧ Session.Reaches c draws now events s
  created : a.started = true → a.configurations = []
  unstarted : a.started = false → ∀ k, a.threads k = .checking ∧ a.stopped k = false
  stopped : ∀ k, a.stopped k = true → a.hasWork k = false
  left : ∀ k, a.threads k = .left → a.exitRequested = true ∨ a.stopped k = true

namespace Consistent

variable {cs : List SessionConfiguration} {n : Nat} {a a' : Application}

theorem create (cs : List SessionConfiguration) (cores : Nat) :
    Consistent cs (getConcurrency cores) (create cs cores) where
  concurrency := rfl
  configurations := rfl
  reaches := by simp [Application.create]
  created := by simp [Application.create]
  unstarted := fun _ _ => ⟨rfl, rfl⟩
  stopped := by simp [Application.create]
  left := by simp [Application.create]

theorem sound (h : Consistent cs n a) (accepted : ∀ c ∈ cs, Accepted c) {j : Nat} {s : Session}
    (found : a.sessions[j]? = some s) : Sound s := by
  obtain ⟨c, draws, now, events, hc, reach⟩ := h.reaches j s found
  exact (Sound.of_reaches (accepted c (List.mem_of_getElem? hc)) reach).1

/-- A session that takes a step goes on as it would alone, and a service that is out of work stays
so. -/
theorem setSession (h : Consistent cs n a) {j t : Nat} {e : Event} {s s' : Session}
    (found : a.sessions[j]? = some s) (hs : s.step (t, e) = some s') :
    Consistent cs n (a.setSession j s') where
  concurrency := h.concurrency
  configurations := by
    simp only [Application.setSession, List.length_set]
    exact h.configurations
  reaches := by
    intro i u hu
    rcases setSession_getElem? hu with ⟨rfl, rfl⟩ | ⟨_, before⟩
    · obtain ⟨c, draws, now, events, hc, reach⟩ := h.reaches i s found
      exact ⟨c, draws, now, events ++ [(t, e)], hc, Machine.run_concat.mpr ⟨s, reach, hs⟩⟩
    · exact h.reaches i u before
  created := h.created
  unstarted := h.unstarted
  stopped := by
    intro k stopped
    have idle := hasWork_eq_false.mp (h.stopped k stopped)
    refine hasWork_eq_false.mpr fun i u hu own => ?_
    rcases setSession_getElem? hu with ⟨rfl, rfl⟩ | ⟨_, before⟩
    · exact (Session.isIdle_step (idle i s found own) hs).2
    · exact idle i u before own
  left := by
    intro k left
    refine (h.left k left).imp_left fun exit => ?_
    simp [Application.setSession, exit]

theorem polled (h : Consistent cs n a) {k : Nat} (polling : a.threads k = .polling) :
    Consistent cs n (a.polled k) where
  concurrency := h.concurrency
  configurations := h.configurations
  reaches := h.reaches
  created := h.created
  unstarted := by
    intro unstarted
    have checking := (h.unstarted unstarted k).1
    simp [checking] at polling
  stopped := by
    intro i stopped
    simp only [Application.polled, Function.update_apply] at stopped
    change a.hasWork i = false
    split at stopped
    next same =>
      subst same
      by_contra work
      simp only [Bool.not_eq_false] at work
      simp only [work, Bool.not_true, Bool.or_false] at stopped
      simp [h.stopped i stopped] at work
    next => exact h.stopped i stopped
  left := by
    intro i left
    simp only [Application.polled, Function.update_apply] at left ⊢
    split at left
    next => simp at left
    next other =>
      rw [if_neg other]
      exact h.left i left

theorem step (h : Consistent cs n a) {event : ApplicationEvent} (hs : a.step event = some a') :
    Consistent cs n a' := by
  obtain ⟨_, move⟩ := step_cases hs
  clear hs
  cases move with
  | signal m =>
    unfold onSignal
    split
    next => exact ⟨h.1, h.2, h.3, h.4, h.5, h.6, h.7⟩
    next =>
      split
      next => exact ⟨h.1, h.2, h.3, h.4, h.5, h.6, h.7⟩
      next => exact ⟨h.1, h.2, h.3, h.4, h.5, h.6, fun _ _ => .inl rfl⟩
  | createSession draws now c rest next =>
    have unstarted : a.started = false := by
      by_contra started
      simp [h.created (by simpa using started)] at next
    have dropped := h.configurations.symm.trans next
    have length : a.sessions.length < cs.length := by
      by_contra long
      rw [List.drop_eq_nil_of_le (Nat.le_of_not_lt long)] at dropped
      simp at dropped
    rw [List.drop_eq_getElem_cons length, List.cons.injEq] at dropped
    refine ⟨h.concurrency, ?_, fun i u found => ?_, ?_, h.unstarted, fun k stopped => ?_, h.left⟩
    · simp [dropped.2]
    · rcases Nat.lt_or_ge i a.sessions.length with old | new
      · rw [List.getElem?_append_left old] at found
        exact h.reaches i u found
      · rw [List.getElem?_append_right new, List.getElem?_singleton] at found
        split at found
        next first =>
          cases Option.some.inj found
          obtain rfl : i = a.sessions.length := by omega
          exact ⟨c, draws, now, [], by rw [List.getElem?_eq_getElem length, dropped.1], rfl⟩
        next => simp at found
    · simp [unstarted]
    · simp [(h.unstarted unstarted k).2] at stopped
  | createThrows event creation => exact ⟨h.1, h.2, h.3, h.4, h.5, h.6, h.7⟩
  | startThreads created => exact ⟨h.1, h.2, h.3, fun _ => created, by simp, h.6, h.7⟩
  | complete j t c s s' found hs => exact h.setSession found hs
  | check k started bound checking =>
    refine ⟨h.1, h.2, h.3, h.4, ?_, h.6, fun i left => ?_⟩
    · intro unstarted
      exact absurd (started.symm.trans unstarted) (by simp)
    · simp only [Application.check, Function.update_apply] at left ⊢
      split at left
      next same =>
        subst same
        split at left
        next => simp at left
        next stays =>
          by_cases exit : a.exitRequested = true
          · exact .inl exit
          · refine .inr ?_
            by_contra running
            exact stays ⟨by simpa using exit, by simpa using running⟩
      next => exact h.left i left
  | poll k polling => exact h.polled polling
  | run k j t handler s s' polling own found hs => exact (h.setSession found hs).polled polling
  | joinThreads started left => exact ⟨h.1, h.2, h.3, h.4, h.5, h.6, h.7⟩

theorem of_run {cs : List SessionConfiguration} {cores : Nat} {events : List ApplicationEvent}
    (reach : Machine.run Application.step (Application.create cs cores) events = some a) :
    Consistent cs (getConcurrency cores) a :=
  Machine.run_invariant (Consistent cs (getConcurrency cores)) (fun _ _ _ h hs => h.step hs)
    (create cs cores) reach

end Consistent

end Application

end NetTester

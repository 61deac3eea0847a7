import NetTester.ApplicationMoves

namespace NetTester

namespace Application

/-- One handler has made all the calls of `abort` of a session, with one code, which `finalize`
returns, and the thread of the session has run no handler since. -/
def AbortedOnce (start : Application) (events : List ApplicationEvent) (n j : Nat) (s : Session) :
    Prop :=
  ∃ before t handler after a u a' u' f,
    events = before ++ .pollOne (j % n) (some (j, t, handler)) :: after ∧
    Machine.run step start before = some a ∧ a.sessions[j]? = some u ∧ u.aborts = [] ∧
    a.step (.pollOne (j % n) (some (j, t, handler))) = some a' ∧ a'.sessions[j]? = some u' ∧
    u'.aborts = s.aborts ∧ (∀ g ∈ s.aborts, g = f) ∧ s.finalize = some f ∧
    ∀ other, .pollOne (j % n) (some other) ∉ after

variable {cs : List SessionConfiguration} {n : Nat} {a a' : Application}
  {event : ApplicationEvent}

/-- A session after an event: a new one, the one before with no further abort, or the one that a
handler of its own leaves. -/
theorem session_origin (hs : a.step event = some a') {j : Nat} {s' : Session}
    (found : a'.sessions[j]? = some s') :
    s'.aborts = [] ∨ (∃ s, a.sessions[j]? = some s ∧ s.aborts = s'.aborts) ∨
      ∃ t handler s, event = .pollOne (j % a.concurrency) (some (j, t, handler)) ∧
        a.sessions[j]? = some s ∧ s.step (t, .invoke handler) = some s' := by
  have kept : a.sessions[j]? = some s' → s'.aborts = [] ∨
      (∃ s, a.sessions[j]? = some s ∧ s.aborts = s'.aborts) ∨
      ∃ t handler s, event = .pollOne (j % a.concurrency) (some (j, t, handler)) ∧
        a.sessions[j]? = some s ∧ s.step (t, .invoke handler) = some s' :=
    fun same => .inr (.inl ⟨s', same, rfl⟩)
  obtain ⟨_, move⟩ := step_cases hs
  clear hs
  cases move with
  | signal m =>
    apply kept
    unfold onSignal at found
    split at found
    next => exact found
    next =>
      split at found
      next => exact found
      next => exact found
  | createSession draws now c rest next =>
    rcases Nat.lt_or_ge j a.sessions.length with old | new
    · rw [List.getElem?_append_left old] at found
      exact kept found
    · rw [List.getElem?_append_right new, List.getElem?_singleton] at found
      split at found
      next =>
        cases Option.some.inj found
        exact .inl rfl
      next => simp at found
  | createThrows event creation => exact kept found
  | startThreads created => exact kept found
  | complete i t c s u before hs =>
    rcases setSession_getElem? found with ⟨rfl, rfl⟩ | ⟨_, same⟩
    · refine .inr (.inl ⟨s, before, ?_⟩)
      rw [Session.aborts, Session.aborts, Session.complete_calls hs]
    · exact kept same
  | check k started bound checking => exact kept found
  | poll k polling => exact kept found
  | run k i t handler s u polling own before hs =>
    rcases setSession_getElem? found with ⟨rfl, rfl⟩ | ⟨_, same⟩
    · exact .inr (.inr ⟨t, handler, s, by rw [own], before, hs⟩)
    · exact kept same
  | joinThreads started left => exact kept found

/-- An exit request stays, and a thread that is not polling then never polls again. -/
theorem exit_stays (hs : a.step event = some a') (exit : a.exitRequested = true) (k : Nat)
    (away : a.threads k ≠ .polling) : a'.exitRequested = true ∧ a'.threads k ≠ .polling := by
  obtain ⟨_, move⟩ := step_cases hs
  clear hs
  have polled : ∀ i, Function.update a.threads i .checking k ≠ .polling := by
    intro i
    rw [Function.update_apply]
    split
    next => simp
    next => exact away
  cases move with
  | signal m =>
    unfold onSignal
    split
    next => exact ⟨exit, away⟩
    next =>
      split
      next => exact ⟨exit, away⟩
      next => exact ⟨rfl, away⟩
  | createSession draws now c rest next => exact ⟨exit, away⟩
  | createThrows event creation => exact ⟨exit, away⟩
  | startThreads created => exact ⟨exit, away⟩
  | complete i t c s u found hs => exact ⟨by simp [setSession, exit], away⟩
  | check i started bound checking =>
    refine ⟨exit, ?_⟩
    simp only [check, exit, Function.update_apply]
    split
    next => simp
    next => exact away
  | poll i polling => exact ⟨exit, polled i⟩
  | run i j t handler s u polling own found hs =>
    exact ⟨by simp [Application.polled, setSession, exit], polled i⟩
  | joinThreads started left => exact ⟨exit, away⟩

/-- A thread that runs a handler goes back to the condition of its loop. -/
theorem pollOne_cases {k j t : Nat} {handler : Handler}
    (hs : a.step (.pollOne k (some (j, t, handler))) = some a') :
    a.threads k = .polling ∧ a'.threads k = .checking ∧
      ∀ s', a'.sessions[j]? = some s' → s'.exitRequested = true → a'.exitRequested = true := by
  obtain ⟨_, move⟩ := step_cases hs
  clear hs
  cases move with
  | createThrows event creation => simp at creation
  | run _ _ _ _ s u polling own found hs =>
    refine ⟨polling, by simp [polled], fun s' after exit => ?_⟩
    have bound := (List.getElem?_eq_some_iff.mp found).1
    simp only [polled, setSession, List.getElem?_set_self bound, Option.some.injEq] at after
    simp [polled, setSession, after, exit]

theorem aborted_step (accepted : ∀ c ∈ cs, Accepted c) {cores : Nat}
    {events : List ApplicationEvent}
    (reach : Machine.run step (create cs cores) events = some a)
    (before : ∀ (j : Nat) (s : Session), a.sessions[j]? = some s → s.aborts ≠ [] →
      AbortedOnce (create cs cores) events (getConcurrency cores) j s ∧ a.exitRequested = true ∧
        a.threads (j % getConcurrency cores) ≠ .polling)
    (hs : a.step event = some a') {j : Nat} {s' : Session} (found : a'.sessions[j]? = some s')
    (aborted : s'.aborts ≠ []) :
    AbortedOnce (create cs cores) (events ++ [event]) (getConcurrency cores) j s' ∧
      a'.exitRequested = true ∧ a'.threads (j % getConcurrency cores) ≠ .polling := by
  have consistent := Consistent.of_run reach
  have sound := (consistent.step hs).sound accepted found
  have failure : s'.finalize = s'.aborts.head? := sound.ending.failure
  rcases session_origin hs found with fresh | ⟨s, same, aborts⟩ | ⟨t, handler, s, rfl, own, taken⟩
  · exact absurd fresh aborted
  · obtain ⟨⟨first, t, handler, after, b, u, b', u', f, split, reach', hu, clear, hb, hu', all, one,
      finalized, last⟩, exit, away⟩ := before j s same (aborts ▸ aborted)
    refine ⟨⟨first, t, handler, after ++ [event], b, u, b', u', f, by simp [split], reach', hu,
      clear, hb, hu', all.trans aborts, aborts ▸ one, ?_, ?_⟩, exit_stays hs exit _ away⟩
    · have sound := consistent.sound accepted same
      have failure' : s.finalize = s.aborts.head? := sound.ending.failure
      rw [failure, ← aborts, ← failure', finalized]
    · intro other member
      rcases List.mem_append.mp member with member | member
      · exact last other member
      · rw [← List.mem_singleton.mp member] at hs
        exact away (pollOne_cases hs).1
  · rw [consistent.concurrency] at hs ⊢
    obtain ⟨polling, checking, exits⟩ := pollOne_cases hs
    have clear : s.aborts = [] := by
      by_contra early
      exact (before j s own early).2.2 polling
    have exit : s'.exitRequested = true := by
      rw [sound.ending.exit, sound.ending.failure]
      obtain ⟨f, rest, aborts⟩ := List.exists_cons_of_ne_nil aborted
      rw [aborts]
      rfl
    refine ⟨?_, exits s' found exit, by simp [checking]⟩
    cases (Session.step_frame (consistent.sound accepted own).tidy taken).reports with
    | complete completion event => cases event
    | invoke _ _ f n cause report =>
      rw [Report.abort_iterate] at report
      split at report
      next =>
        have same : s'.aborts = s.aborts := congrArg Report.aborts report
        exact absurd (same.trans clear) aborted
      next some' =>
        have aborts : s'.aborts = List.replicate n f ++ s.aborts := congrArg Report.aborts report
        have recorded : s'.finalize = some f := congrArg Report.failure report
        refine ⟨events, t, handler, [], a, s, a', s', f, rfl, reach, own, clear, hs, found, rfl, ?_,
          recorded, by simp⟩
        intro g member
        rw [aborts, clear, List.append_nil] at member
        exact (List.mem_replicate.mp member).2

end Application

open Application

/-- A session that aborts does so in one handler and with one code, the last handler that its thread
runs, and that code is what `finalize` returns. -/
theorem aborts_once {cs : List SessionConfiguration} (accepted : ∀ c ∈ cs, Accepted c)
    {cores : Nat} {events : List ApplicationEvent} {a : Application}
    (reach : Machine.run Application.step (.create cs cores) events = some a) {j : Nat}
    {s : Session} (found : a.sessions[j]? = some s) :
    (s.aborts = [] ∧ s.finalize = none) ∨
      AbortedOnce (.create cs cores) events (getConcurrency cores) j s := by
  have run := Machine.run_induction (fun events a => ∀ (j : Nat) (s : Session),
    a.sessions[j]? = some s → s.aborts ≠ [] →
      AbortedOnce (.create cs cores) events (getConcurrency cores) j s ∧ a.exitRequested = true ∧
        a.threads (j % getConcurrency cores) ≠ .polling) (by simp [Application.create])
    (fun _ _ _ _ reach before hs _ _ found aborted =>
      aborted_step accepted reach before hs found aborted) reach
  by_cases aborted : s.aborts = []
  · have failure := ((Consistent.of_run reach).sound accepted found).ending.failure
    rw [aborted] at failure
    exact .inl ⟨aborted, failure⟩
  · exact .inr (run j s found aborted).1

/-- A datagram session that receives two wrong bytes and reports each. -/
def receiveWrong : List ApplicationEvent :=
  [.createSession (fun _ => 0) 0, .startThreads, .check 0, .pollOne 0 (some (0, 0, .posted 0)),
    .complete 0 0 (.receiveSlice 0), .check 0, .pollOne 0 (some (0, 0, .receiveThrottle 0)),
    .complete 0 0 (.received 0 (.ok [7, 7])), .check 0, .pollOne 0 (some (0, 0, .onReceive 0)),
    .check 0, .joinThreads]

theorem aborts_once_receiveWrong : ∃ a, Machine.run Application.step (.create
    [{ defaultConfiguration "127.0.0.1:1234" ⟨2, .iec, by decide⟩ with
      protocol := .udp, verify := .all }] 0) receiveWrong = some a ∧
    ∃ s, a.sessions[0]? = some s ∧ s.aborts.length = 2 ∧ AbortedOnce (.create
      [{ defaultConfiguration "127.0.0.1:1234" ⟨2, .iec, by decide⟩ with
        protocol := .udp, verify := .all }] 0) receiveWrong 1 0 s := by
  refine Machine.exists_run (fun a => a.sessions.map (·.aborts.length)) (b := [2])
    (by decide +kernel) ?_
  intro a reach observed
  obtain ⟨s, sessions, aborts⟩ := List.map_eq_singleton_iff.mp observed
  have found : a.sessions[0]? = some s := by simp [sessions]
  refine ⟨s, found, aborts, ?_⟩
  rcases aborts_once (List.forall_mem_singleton.mpr (accepted_iff.mpr (by decide))) reach found with
    ⟨none, _⟩ | once
  · simp [none] at aborts
  · exact once

end NetTester

import NetTester.Sound

namespace NetTester

namespace Session

/-- A wait that will still report a failure however the session ends: a timeout or a signal whose
completion is queued, or a timer that is yet to be armed. -/
def lateAbort (s : Session) : Prop :=
  (∃ o ∈ s.timeoutTimer, o.result = some none) ∨
    (∃ o ∈ s.signals, ∃ n, o.result = some (.ok n)) ∨
      .startTimer ∈ s.posts ∧ (estimateTestDuration s.configuration).isSome = true

/-- `finalize` prints the statistics and the failure, and returns the failure. -/
def finalize (s : Session) : Option ErrorCode := s.failure

end Session

/-- A finished session without a failure that no wait can make fail any more. -/
structure Quiet (s : Session) : Prop where
  done : s.isDone = true
  clear : s.failure = none
  timer : ∀ o ∈ s.timeoutTimer, ∃ f, o.result = some (some f)
  signals : ∀ o ∈ s.signals, ∃ f, o.result = some (.error f)
  posts : .startTimer ∈ s.posts → Session.estimateTestDuration s.configuration = none

variable {s s' : Session}

/-- Nothing of a transfer is left in a session that is done. -/
theorem Sound.done (h : Sound s) (done : s.isDone = true) :
    s.receives = [] ∧ s.sends = [] ∧ s.receiveThrottle.waits = [] ∧ s.sendThrottle.waits = [] ∧
      s.opens = [] ∧ .startTimerAndTransfer ∉ s.posts ∧ s.assertionFailed = false := by
  simp only [Session.isDone, Bool.and_eq_true] at done
  obtain ⟨receives, receiveWaits⟩ := h.receive.single.2.2 done.1
  obtain ⟨sends, sendWaits⟩ := h.send.single.2.2 done.2
  have started : s.statistics.startDate ≠ none := by
    intro date
    have incomplete := (h.tidy.unstarted date).2.2.1
    simp [incomplete] at done
  have alive : s.assertionFailed = false := by
    cases h.send with
    | stopped start remaining cause assertion budget used short sends waits incomplete =>
      have incomplete : s.isSendComplete = false := incomplete
      simp [incomplete] at done
    | _ => assumption
  refine ⟨receives, sends, receiveWaits, sendWaits, ?_, fun posted => ?_, alive⟩
  · by_contra some
    exact started (h.tidy.opens some)
  · exact started (h.tidy.posts posted)

namespace Quiet

theorem congr (h : Quiet s) (done : s'.isDone = s.isDone) (failure : s'.failure = s.failure)
    (timer : ∀ o ∈ s'.timeoutTimer, o ∈ s.timeoutTimer) (signals : ∀ o ∈ s'.signals, o ∈ s.signals)
    (posts : ∀ p ∈ s'.posts, p ∈ s.posts) (configuration : s'.configuration = s.configuration) :
    Quiet s' where
  done := done.trans h.done
  clear := failure.trans h.clear
  timer := fun o member => h.timer o (timer o member)
  signals := fun o member => h.signals o (signals o member)
  posts := fun posted => configuration ▸ h.posts (posts _ posted)

/-- Only the cancelled waits of a quiet session are left to be delivered. -/
theorem step {t : Nat} {e : Event} (h : Quiet s) (sound : Sound s)
    (hs : s.step (t, e) = some s') : Quiet s' := by
  obtain ⟨receives, sends, receiveWaits, sendWaits, opens, posts, _⟩ := sound.done h.done
  cases Session.step_cases sound.tidy hs with
  | opened i failure after completes => simp [opens] at completes
  | received data c pending => simp [receives] at pending
  | receiveFails f c pending => simp [receives] at pending
  | sent n c pending => simp [sends] at pending
  | sendFails f c pending => simp [sends] at pending
  | receiveExpires x pending => simp [receiveWaits] at pending
  | sendExpires x pending => simp [sendWaits] at pending
  | timedOut i after completes =>
    obtain ⟨handler, pending, _⟩ := Operation.complete_eq_some completes
    obtain ⟨f, result⟩ := h.timer _ (List.mem_of_getElem? pending)
    simp at result
  | signalled signal =>
    refine h.congr rfl rfl (fun _ => id) ?_ (fun _ => id) rfl
    intro o member
    obtain ⟨o, before, rfl⟩ := List.mem_map.mp member
    obtain ⟨f, result⟩ := h.signals o before
    obtain ⟨handler, _⟩ := o
    cases result
    exact before
  | connect i failure after ready => simp [opens] at ready
  | startTimer i duration posted estimate =>
    have none := h.posts (List.mem_of_getElem? posted)
    exact absurd (none.symm.trans estimate) (by simp)
  | startTimerAndTransfer i duration posted =>
    exact absurd (List.mem_of_getElem? posted) posts
  | onReceive slice size r ready => simp [receives] at ready
  | onEof size r ready => simp [receives] at ready
  | onSend c r ready => simp [sends] at ready
  | receiveSlice x ready => simp [receiveWaits] at ready
  | receiveCancelled x f ready => simp [receiveWaits] at ready
  | sendSlice x ready => simp [sendWaits] at ready
  | sendCancelled x f ready => simp [sendWaits] at ready
  | timeout i x after ready =>
    obtain ⟨f, result⟩ := h.timer _ (List.mem_of_getElem? (Operation.dequeue_eq_some ready).1)
    cases result
  | timeoutCancelled i x f after ready =>
    obtain ⟨_, rfl⟩ := Operation.dequeue_eq_some ready
    exact h.congr rfl rfl (fun _ => List.mem_of_mem_eraseIdx) (fun _ => id) (fun _ => id) rfl
  | signal i n after ready =>
    obtain ⟨f, result⟩ := h.signals _ (List.mem_of_getElem? (Operation.dequeue_eq_some ready).1)
    cases result
  | signalCancelled i f after ready =>
    obtain ⟨_, rfl⟩ := Operation.dequeue_eq_some ready
    exact h.congr rfl rfl (fun _ => id) (fun _ => List.mem_of_mem_eraseIdx) (fun _ => id) rfl

theorem run {events : List (Nat × Event)} (h : Quiet s) (sound : Sound s)
    (reach : Machine.run Session.step s events = some s') : Quiet s' := by
  refine (Machine.run_invariant (fun s => Sound s ∧ Quiet s) ?_ ⟨sound, h⟩ reach).2
  rintro s ⟨t, e⟩ s' ⟨sound, h⟩ hs
  exact ⟨sound.step hs, h.step sound hs⟩

end Quiet

/-- The step that finishes a session cancels what it waits for, and keeps what is already queued. -/
theorem Sound.finish {t : Nat} {e : Event} (h : Sound s) (before : s.isDone = false)
    (hs : s.step (t, e) = some s') (after : s'.isDone = true) :
    s'.signals = Operation.settle (.error .operationAborted) s.signals ∧
      s'.timeoutTimer = Operation.settle (some .operationAborted) s.timeoutTimer ∧
      (.startTimer ∈ s'.posts ↔ .startTimer ∈ s.posts) ∧ s'.configuration = s.configuration := by
  have frame := Session.step_frame h.tidy hs
  have other : s'.isDone = s.isDone → False := fun same => by simp [same, before] at after
  have settled : s'.endView = s.endView.finish := by
    cases Session.step_endMove h.tidy hs with
    | chain step =>
      cases step with
      | still view done => exact (other done).elim
      | finish view => exact view
    | arm duration i p posted view done => exact (other done).elim
    | timedOut i after event completes view done => exact (other done).elim
    | timeout i x failure after ready view done => exact (other done).elim
    | signalled signal event view done => exact (other done).elim
    | signal i r after ready view done => exact (other done).elim
  refine ⟨congrArg EndView.signals settled, congrArg EndView.timeoutTimer settled, ?_,
    frame.configuration⟩
  cases frame.opening with
  | still opens posts => rw [posts]
  | opened i failure completes posts => rw [posts]
  | connect i failure after ready opens posts => rw [posts]
  | timer i posted opens posts date done => exact (other done).elim
  | timerAndTransfer i posted opens posts =>
    have member := List.mem_of_getElem? posted
    cases h.opening with
    | connecting tcp date r opens posts' => rcases posts' with posts' | posts' <;> simp_all
    | connected tcp date opens posts' => rcases posts' with posts' | posts' <;> simp_all
    | posted udp date opens posts' =>
      rw [posts, posts']
      cases i <;> simp
    | started udp date opens posts' => simp [posts'] at member

/-- A cancellation leaves the completions that are queued with their own results. -/
theorem lateAbort_finish {t : Nat} {e : Event} (h : Sound s) (before : s.isDone = false)
    (hs : s.step (t, e) = some s') (after : s'.isDone = true) :
    s'.lateAbort ↔ s.lateAbort := by
  obtain ⟨signals, timer, posts, configuration⟩ := h.finish before hs after
  unfold Session.lateAbort
  rw [signals, timer, posts, configuration]
  have keeps : ∀ {κ ρ : Type} (operations : List (Operation κ ρ)) (cancelled : ρ) (P : ρ → Prop),
      ¬P cancelled → ((∃ o ∈ Operation.settle cancelled operations, ∃ r, o.result = some r ∧ P r) ↔
        ∃ o ∈ operations, ∃ r, o.result = some r ∧ P r) := by
    intro κ ρ operations cancelled P other
    simp only [Operation.settle, List.mem_map, exists_exists_and_eq_and, Option.some.injEq,
      exists_eq_left']
    refine exists_congr fun o => and_congr_right fun _ => ?_
    cases o.result <;> simp [other]
  have timeouts := keeps s.timeoutTimer (some .operationAborted) (· = none) (by simp)
  have waits := keeps s.signals (.error .operationAborted) (fun r => ∃ n, r = .ok n) (by simp)
  simp only [exists_eq_right] at timeouts
  have success : ∀ o : Operation Unit (Except ErrorCode Signal),
      (∃ r, o.result = some r ∧ ∃ n, r = .ok n) ↔ ∃ n, o.result = some (.ok n) := by
    intro o
    constructor
    · rintro ⟨r, hr, n, rfl⟩
      exact ⟨n, hr⟩
    · rintro ⟨n, hn⟩
      exact ⟨_, hn, n, rfl⟩
  simp only [success] at waits
  rw [timeouts, waits]

/-- An expired wait of the timer sets the failure when it is delivered. -/
theorem timeout_delivers {o : Operation Int (Option ErrorCode)} (alive : s.assertionFailed = false)
    (member : o ∈ s.timeoutTimer) (expired : o.result = some none) :
    ∃ i u, s.step (s.now, .invoke (.onTimeout i)) = some u ∧ u.failure ≠ none := by
  obtain ⟨i, ready⟩ := Operation.dequeue_of_mem member expired
  refine ⟨i, ?_⟩
  simp only [Session.step, Session.dispatch, Session.invoke, ready, alive, le_refl, and_self,
    if_true, Option.map_some, Option.some.injEq, exists_eq_left']
  simp [Session.handleTimeout, Session.abort]

theorem lateAbort_fails (alive : s.assertionFailed = false) (late : s.lateAbort) :
    ∃ events u, Machine.run Session.step s events = some u ∧ u.failure ≠ none := by
  rcases late with ⟨o, member, expired⟩ | ⟨o, member, n, delivered⟩ | ⟨posted, estimate⟩
  · obtain ⟨i, u, hs, failed⟩ := timeout_delivers alive member expired
    exact ⟨[_], u, Machine.run_cons_iff.mpr ⟨u, hs, rfl⟩, failed⟩
  · obtain ⟨i, ready⟩ := Operation.dequeue_of_mem member delivered
    refine ⟨[(s.now, .invoke (.onSignal i))], ?_⟩
    simp only [Machine.run, Session.step, Session.dispatch, Session.invoke, ready, alive, le_refl,
      and_self, if_true, Option.map_some, Option.bind_some, Option.some.injEq, exists_eq_left']
    cases n <;> simp [Session.handleSignal, Session.abort]
  · -- The timer is armed after the end, expires, and its handler aborts.
    obtain ⟨i, hi⟩ := List.mem_iff_getElem?.mp posted
    obtain ⟨duration, hd⟩ := Option.isSome_iff_exists.mp estimate
    let settled := Operation.settle (some .operationAborted) s.timeoutTimer
    let armed : Session := { s with
      posts := s.posts.eraseIdx i, timeoutTimer := settled ++ [Operation.initiate duration] }
    let expired : Session := { armed with timeoutTimer := settled ++ [⟨duration, some none⟩] }
    have arm : s.step (s.now, .invoke (.posted i)) = some armed := by
      simp [Session.step, Session.dispatch, Session.invoke, alive, hi, Session.runPosted,
        Session.startTimer, hd, armed, settled]
    have expire : armed.step (s.now, .complete (.timedOut settled.length)) = some expired := by
      have last : Operation.complete (fun _ => True) none (settled ++ [Operation.initiate duration])
          settled.length = some (settled ++ [⟨duration, some none⟩]) :=
        Operation.complete_last settled trivial
      simp [Session.step, Session.dispatch, Session.complete, alive, armed, expired, last]
    obtain ⟨j, u, fire, failed⟩ := timeout_delivers (s := expired) (o := ⟨duration, some none⟩)
      alive (by simp [expired]) rfl
    have steps := Machine.run_cons_iff.mpr ⟨armed, arm, Machine.run_cons_iff.mpr ⟨expired, expire,
      Machine.run_cons_iff.mpr ⟨u, fire, Machine.run_nil _ _⟩⟩⟩
    exact ⟨_, u, steps, failed⟩

/-- A session that finishes without a failure keeps its record clear exactly when no wait was due to
fail it by then: no timeout or signal was queued, and its timer had been armed. -/
theorem failure_stays_clear_iff {c : SessionConfiguration} (accepted : Accepted c)
    {draws : Nat → Nat} {now t : Nat} {events : List (Nat × Event)} {e : Event} {s s' : Session}
    (reach : Session.Reaches c draws now events s) (running : Call.onFinish ∉ s.calls)
    (hs : s.step (t, e) = some s') (finished : Call.onFinish ∈ s'.calls)
    (clear : s'.failure = none) :
    (∀ later u, Machine.run Session.step s' later = some u → u.finalize = none) ↔
      ¬s.lateAbort := by
  obtain ⟨sound, _, _⟩ := Sound.of_reaches accepted reach
  have sound' := sound.step hs
  have before : s.isDone = false := by
    have count := sound.ending.finishes
    rw [List.count_eq_zero_of_not_mem running] at count
    by_contra done
    simp [done] at count
  have after : s'.isDone = true := by
    have count := sound'.ending.finishes
    have positive := List.count_pos_iff.mpr finished
    by_contra undone
    rw [if_neg undone] at count
    omega
  obtain ⟨signals, timer, _, _⟩ := sound.finish before hs after
  rw [← lateAbort_finish sound before hs after]
  constructor
  · intro stays late
    obtain ⟨later, u, reach, failed⟩ := lateAbort_fails (sound'.done after).2.2.2.2.2.2 late
    exact failed (stays later u reach)
  · intro quiet later u reach
    simp only [Session.lateAbort, not_or, not_exists, not_and] at quiet
    have start : Quiet s' := by
      refine ⟨after, clear, ?_, ?_, ?_⟩
      · intro o member
        have queued := quiet.1 o member
        rw [timer] at member
        obtain ⟨o, _, rfl⟩ := List.mem_map.mp member
        cases hr : o.result.getD (some .operationAborted) with
        | none => exact absurd (congrArg some hr) queued
        | some f => exact ⟨f, rfl⟩
      · intro o member
        have queued := quiet.2.1 o member
        rw [signals] at member
        obtain ⟨o, _, rfl⟩ := List.mem_map.mp member
        cases hr : o.result.getD (.error .operationAborted) with
        | ok n => exact absurd (congrArg some hr) (queued n)
        | error f => exact ⟨f, rfl⟩
      · intro posted
        simpa using quiet.2.2 posted
    exact (start.run sound' reach).clear

/-- A datagram session that has sent its only byte, up to the handler that finishes it. -/
def lastSend : List (Nat × Event) :=
  [(0, .invoke (.posted 0)), (0, .complete (.sendSlice 0)), (0, .invoke (.sendThrottle 0)),
    (0, .complete (.sent 0 (.ok 1)))]

theorem failure_stays_clear_lastSend : ∃ s', Session.Reaches
    { defaultConfiguration "127.0.0.1:1234" ⟨1, .iec, by decide⟩ with
      protocol := .udp, direction := .tx }
    (fun _ => 0) 0 (lastSend ++ [(0, .invoke (.onSend 0))]) s' ∧
      ∀ later u, Machine.run Session.step s' later = some u → u.finalize = none := by
  refine Machine.exists_run (fun s => (s.calls, s.failure))
    (b := ([.onFinish, .finishSend, .finishReceive], none)) rfl ?_
  intro s' reach' ended
  obtain ⟨s, reach, hs⟩ := Machine.run_concat.mp reach'
  have queued : (Machine.run Session.step (Session.create
      { defaultConfiguration "127.0.0.1:1234" ⟨1, .iec, by decide⟩ with
        protocol := .udp, direction := .tx } (fun _ => 0) 0) lastSend).map
      (fun s => (s.calls, s.timeoutTimer, s.signals, s.posts)) =
      some ([.finishReceive], [⟨1100000, none⟩], [⟨(), none⟩], []) := rfl
  rw [reach, Option.map_some, Option.some.injEq] at queued
  simp only [Prod.mk.injEq] at ended queued
  obtain ⟨calls, timer, signals, posts⟩ := queued
  refine (failure_stays_clear_iff (accepted_iff.mpr (by decide)) reach (by simp [calls]) hs
    (by simp [ended.1]) ended.2).mpr ?_
  simp [Session.lateAbort, timer, signals, posts]

/-- The timer expires just before the last send is handled: the session finishes, then fails. -/
theorem failure_after_finish : ¬∀ (c : SessionConfiguration) (_ : Accepted c) (draws : Nat → Nat)
    (now : Nat) (events later : List (Nat × Event)) (s u : Session)
    (_ : Session.Reaches c draws now events s) (_ : Call.onFinish ∈ s.calls)
    (_ : s.failure = none) (_ : Machine.run Session.step s later = some u), u.finalize = none := by
  intro claim
  let c : SessionConfiguration :=
    { defaultConfiguration "127.0.0.1:1234" ⟨1, .iec, by decide⟩ with
      protocol := .udp, direction := .tx }
  have run : (Machine.run Session.step (Session.create c (fun _ => 0) 0)
      (lastSend ++ [(2, .complete (.timedOut 0)), (2, .invoke (.onSend 0))] ++
        [(2, .invoke (.onTimeout 0))])).map Session.finalize =
      some (some (.tester .testTimeout)) := by decide +kernel
  obtain ⟨u, reach, failed⟩ := Option.map_eq_some_iff.mp run
  obtain ⟨s, reach, later⟩ := Machine.run_append.mp reach
  have before : (Machine.run Session.step (Session.create c (fun _ => 0) 0)
      (lastSend ++ [(2, .complete (.timedOut 0)), (2, .invoke (.onSend 0))])).map
        (fun s => (s.calls, s.failure)) =
          some ([.onFinish, .finishSend, .finishReceive], none) := by
    decide +kernel
  rw [reach, Option.map_some, Option.some.injEq, Prod.mk.injEq] at before
  have stays := claim c (accepted_iff.mpr (by decide)) _ _ _ _ s u reach (by simp [before.1])
    before.2 later
  rw [failed] at stays
  cases stays

end NetTester

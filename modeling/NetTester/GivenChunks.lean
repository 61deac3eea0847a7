import NetTester.Verification

namespace NetTester

theorem ReceiveView.ask_buffer {v : ReceiveView} (slice : Nat) :
    (v.ask slice).buffer = v.buffer := by
  unfold ReceiveView.ask
  split <;> rfl

theorem ReceiveView.finish_buffer {v : ReceiveView} (protocol : Protocol) :
    (v.finish protocol).buffer = v.buffer := by
  cases protocol <;> rfl

theorem ReceiveView.ask_finishes {v : ReceiveView} (slice : Nat) :
    (v.ask slice).finishes = v.finishes := by
  unfold ReceiveView.ask
  split <;> rfl

theorem ReceiveView.finish_finishes {v : ReceiveView} (protocol : Protocol) :
    (v.finish protocol).finishes = v.finishes + 1 := by
  cases protocol <;> rfl

namespace Session

/-- The chunk that an event gives to `on_receive`: the bytes that its receive left in the buffer. -/
def chunkGiven (s : Session) (event : Nat × Event) : List (List UInt8) :=
  match event.2 with
  | .invoke (.onReceive i) =>
    match s.receives[i]? with
    | some ⟨⟨.onReceive _, _⟩, some (.ok n)⟩ => [(List.range n).map s.receiveBuffer]
    | _ => []
  | _ => []

/-- The chunks that a session is given along a list of events. -/
def chunksGiven (s : Session) (events : List (Nat × Event)) : List (List UInt8) :=
  Machine.collect step chunkGiven s events

theorem onSend_ok (s : Session) (c : SendCall) (n : Nat) :
    (s.onSend (.ok n) c).report = s.report := by
  simp only [onSend]
  split
  next => exact asyncSend_report (s.countSent c.offset n) _
  next => exact finishSend_report (s.countSent c.offset n)

theorem onReceive_buffer (s : Session) (receives : s.receives = []) (n slice : Nat) :
    (s.onReceive (.ok n) slice).receiveBuffer = s.receiveBuffer := by
  have view := countReceived_receiveView s n
  have buffer := congrArg ReceiveView.buffer view
  simp only [onReceive]
  split
  next =>
    refine (congrArg ReceiveView.buffer (asyncReceive_receiveView _ _)).trans ?_
    exact (ReceiveView.ask_buffer _).trans buffer
  next =>
    have idle := (congrArg ReceiveView.receives view).trans receives
    refine (congrArg ReceiveView.buffer (finishReceive_receiveView _ idle)).trans ?_
    exact (ReceiveView.finish_buffer _).trans buffer

theorem onSend_failed (s : Session) (c : SendCall) {f : ErrorCode} (other : f ≠ .operationAborted) :
    (s.onSend (.error f) c).report = s.report.abort f := by
  simp only [onSend]
  exact abort_report s f

end Session

variable {s s' : Session} {t : Nat} {e : Event}

theorem system_ne_mismatch {f : ErrorCode} (system : f.isSystem = true) :
    f ≠ .tester .dataMismatch := by
  rintro rfl
  cases system

/-- What an event that is not the handler of a receive leaves alone. -/
structure Passing (s s' : Session) : Prop where
  mismatch : .tester .dataMismatch ∈ s'.aborts ↔ .tester .dataMismatch ∈ s.aborts
  ready : ∀ call r, s.receives = [⟨call, some r⟩] → s'.receives = s.receives

theorem Passing.of_report (report : s'.report = s.report)
    (ready : ∀ call r, s.receives = [⟨call, some r⟩] → s'.receives = s.receives) :
    Passing s s' :=
  ⟨by rw [show s'.aborts = s.aborts from congrArg Report.aborts report], ready⟩

theorem Passing.of_abort {f : ErrorCode} (other : f ≠ .tester .dataMismatch)
    (report : s'.report = s.report.abort f) (receives : s'.receives = s.receives) :
    Passing s s' := by
  refine ⟨?_, fun _ _ _ => receives⟩
  rw [show s'.aborts = f :: s.aborts from congrArg Report.aborts report]
  simp [other.symm]

/-- Only the handler of a receive judges bytes or takes a completed receive off. -/
theorem passing (sound : Sound s) (hs : s.step (t, e) = some s')
    (other : ∀ i, e ≠ .invoke (.onReceive i)) : Passing s s' := by
  have started : ∀ call r, s.receives = [⟨call, some r⟩] → s.statistics.startDate ≠ none := by
    intro call r ready date
    simp [(sound.tidy.unstarted date).1] at ready
  cases Session.step_cases sound.tidy hs with
  | received data c pending => exact .of_report rfl (by simp [pending])
  | receiveFails f c pending => exact .of_report rfl (by simp [pending])
  | connect i failure after ready =>
    have unstarted := sound.tidy.opens (Operation.ne_nil_of_dequeue ready)
    exact .of_report (Session.startTransfer_report _) fun call r ready =>
      absurd unstarted (started call r ready)
  | startTimerAndTransfer i duration posted =>
    have unstarted := sound.tidy.posts (List.mem_of_getElem? posted)
    exact .of_report (Session.startTransfer_report _) fun call r ready =>
      absurd unstarted (started call r ready)
  | onReceive => exact absurd rfl (other 0)
  | onEof => exact absurd rfl (other 0)
  | onSend c r queued =>
    let u : Session := { s with now := t, sends := [] }
    have receives : (u.onSend r c).receives = s.receives :=
      congrArg ReceiveView.receives (Session.onSend_receiveView u r c sound.tidy.receiveComplete)
    cases r with
    | error f =>
      have system : f ≠ .tester .dataMismatch := system_ne_mismatch (sound.send_system queued)
      by_cases aborted : f = .operationAborted
      · subst aborted
        exact .of_report rfl fun _ _ _ => rfl
      · exact .of_abort system (Session.onSend_failed u c aborted) receives
    | ok n => exact .of_report (Session.onSend_ok u c n) fun _ _ _ => receives
  | receiveSlice x queued =>
    have idle : s.receives = [] := (sound.receive.wait queued).receives
    exact .of_report (Session.asyncReceive_report _ _) (by simp [idle])
  | sendSlice =>
    exact .of_report (Session.asyncSend_report _ _) fun _ _ _ =>
      congrArg ReceiveView.receives (Session.asyncSend_receiveView _ _)
  | timeout => exact .of_abort (by simp) rfl rfl
  | signal i n => exact .of_abort (by cases n <;> simp [Signal.error]) rfl rfl
  | opened | sent | sendFails | receiveExpires | sendExpires | timedOut | signalled | startTimer
  | receiveCancelled | sendCancelled | timeoutCancelled | signalCancelled =>
    exact .of_report rfl fun _ _ _ => rfl

/-- What one event does to the chunks that a session was given. -/
inductive ChunkMove (s : Session) (t : Nat) (e : Event) (s' : Session) : Prop
  | given (slice size n : Nat) (ready : s.receives = [⟨⟨.onReceive slice, size⟩, some (.ok n)⟩])
      (chunk : s.chunkGiven (t, e) = [(List.range n).map s.receiveBuffer])
      (after : s' = { s with now := t, receives := [] }.onReceive (.ok n) slice)
  | none (chunk : s.chunkGiven (t, e) = [])
      (mismatch : .tester .dataMismatch ∈ s'.aborts ↔ .tester .dataMismatch ∈ s.aborts)
      (ready : ∀ slice size n, s.receives = [⟨⟨.onReceive slice, size⟩, some (.ok n)⟩] →
        s'.receives = s.receives)

/-- Without received bytes at hand a handler reports no mismatch. -/
theorem mem_of_cause (sound : Sound s) {f : ErrorCode} {n : Nat} (cause : AbortCause s f n)
    (report : s'.report = (Report.abort f)^[n] s.report)
    (free : ∀ slice size k, s.receives ≠ [⟨⟨.onReceive slice, size⟩, some (.ok k)⟩]) :
    .tester .dataMismatch ∈ s'.aborts ↔ .tester .dataMismatch ∈ s.aborts := by
  rw [Report.abort_iterate] at report
  split at report
  next => rw [show s'.aborts = s.aborts from congrArg Report.aborts report]
  next positive =>
    have other : .tester .dataMismatch ≠ f := by
      rintro rfl
      obtain ⟨slice, size, k, ready, _⟩ := sound.mismatch_cause cause positive
      exact free slice size k ready
    rw [show s'.aborts = _ from congrArg Report.aborts report]
    simp [other, Session.report]

theorem chunkMove (sound : Sound s) (hs : s.step (t, e) = some s') : ChunkMove s t e s' := by
  by_cases handled : ∃ i, e = .invoke (.onReceive i)
  · obtain ⟨i, rfl⟩ := handled
    cases Session.step_cases sound.tidy hs with
    | onReceive slice size r ready =>
      cases r with
      | ok n => exact .given slice size n ready (by simp [Session.chunkGiven, ready]) rfl
      | error f =>
        obtain ⟨g, k, cause, report⟩ := Session.onReceive_report ready (t := t)
        refine .none (by simp [Session.chunkGiven, ready]) ?_ (by simp [ready])
        exact mem_of_cause sound cause report (by simp [ready])
    | onEof size r ready =>
      obtain ⟨g, k, cause, report⟩ := Session.onEof_report ready (t := t)
      refine .none (by simp [Session.chunkGiven, ready]) ?_ (by simp [ready])
      exact mem_of_cause sound cause report (by simp [ready])
  · have other : ∀ i, e ≠ .invoke (.onReceive i) := fun i event => handled ⟨i, event⟩
    have passing := passing sound hs other
    refine .none ?_ passing.mismatch fun slice size n ready => passing.ready _ _ ready
    unfold Session.chunkGiven
    split
    next i event => exact absurd event (other i)
    next => rfl

/-- What a session knows of the chunks that it was given. The front byte is stale while a receive
that wrote over it waits for its handler. -/
structure Judged (chunks : List (List UInt8)) (s : Session) : Prop where
  verified : Verified s.configuration.verify chunks s.receiveView s.aborts
  front : s.calls.count .finishReceive = 0 →
    (∀ call n, s.receives = [⟨call, some (.ok n)⟩] → n = 0) →
      s.receiveBuffer 0 = frontByte chunks

variable {chunks : List (List UInt8)}

theorem frontByte_concat {buffer : Nat → UInt8} {n : Nat}
    (empty : n = 0 → buffer 0 = frontByte chunks) :
    buffer 0 = frontByte (chunks ++ [(List.range n).map buffer]) := by
  cases n with
  | zero => simpa [frontByte] using empty rfl
  | succ n => simp [frontByte, List.range_succ_eq_map]

theorem Judged.given (h : Judged chunks s) (sound : Sound s) {slice size n : Nat}
    (ready : s.receives = [⟨⟨.onReceive slice, size⟩, some (.ok n)⟩]) :
    Judged (chunks ++ [(List.range n).map s.receiveBuffer])
      ({ s with now := t, receives := [] }.onReceive (.ok n) slice) := by
  let u : Session := { s with now := t, receives := [] }
  have front : s.receiveBuffer 0 =
      frontByte (chunks ++ [(List.range n).map s.receiveBuffer]) := by
    refine frontByte_concat fun empty => h.front (sound.receive.slice ready).unfinished ?_
    simp [ready, empty]
  obtain ⟨received, report⟩ := Session.onReceive_ok (s := u) rfl n slice
  have configuration : (u.onReceive (.ok n) slice).configuration = s.configuration :=
    congrArg Setting.configuration (Session.onReceive_setting u (.ok n) slice)
  have buffer : (u.onReceive (.ok n) slice).receiveBuffer = s.receiveBuffer :=
    Session.onReceive_buffer u rfl n slice
  refine ⟨?_, fun _ _ => ?_⟩
  · rw [configuration]
    exact Verified.count (v := u.receiveView) (r := u.report)
      ⟨h.verified.counter, h.verified.reported⟩ (fun _ => front) received report
  · rw [buffer]
    exact front

theorem Judged.step (h : Judged chunks s) (sound : Sound s) (hs : s.step (t, e) = some s') :
    Judged (chunks ++ s.chunkGiven (t, e)) s' := by
  have configuration := (Session.step_frame sound.tidy hs).configuration
  cases chunkMove sound hs with
  | given slice size n ready chunk after =>
    rw [chunk, after]
    exact h.given sound ready
  | none chunk mismatch ready =>
    rw [chunk, List.append_nil]
    have keep : ∀ w : ReceiveView, s'.receiveView = w → w.received = s.receiveView.received →
        w.buffer = s.receiveBuffer → s.receiveView.finishes ≤ w.finishes → Judged chunks s' := by
      rintro w rfl received buffer finishes
      refine ⟨⟨?_, ?_⟩, fun unfinished short => ?_⟩
      · rw [received]
        exact h.verified.counter
      · rw [mismatch, configuration]
        exact h.verified.reported
      · replace unfinished : s.receiveView.finishes = 0 := by
          have : s'.receiveView.finishes = 0 := unfinished
          omega
        refine (congrFun buffer 0).trans (h.front unfinished fun call n held => ?_)
        obtain ⟨handler, size⟩ := call
        cases handler with
        | onReceive slice => exact short _ n ((ready slice size n held).trans held)
        | onEof =>
          have finished := (sound.receive.probe held).finished
          omega
    cases Session.step_receiveMove sound.tidy hs with
    | still view => exact keep _ view rfl rfl le_rfl
    | start unstarted used view =>
      refine keep _ view (ReceiveView.ask_received 0) (ReceiveView.ask_buffer 0) ?_
      rw [ReceiveView.ask_finishes]
    | startUnused unstarted unused view =>
      refine keep _ view (ReceiveView.finish_received _) (ReceiveView.finish_buffer _) ?_
      rw [ReceiveView.finish_finishes]
      exact Nat.le_succ _
    | expire x waits due view => exact keep _ view rfl rfl le_rfl
    | slice x waits view =>
      refine keep _ view (ReceiveView.ask_received _) (ReceiveView.ask_buffer _) ?_
      rw [ReceiveView.ask_finishes]
    | cancelled x f waits =>
      have result := (sound.receive.wait waits).result
      simp at result
    | fill i data call event pending fits stream view =>
      have unchanged : s'.receiveView.finishes = s.receiveView.finishes := by rw [view]
      refine ⟨⟨?_, ?_⟩, fun unfinished short => ?_⟩
      · rw [view]
        exact h.verified.counter
      · rw [mismatch, configuration]
        exact h.verified.reported
      · have empty := short call data.length (congrArg ReceiveView.receives view)
        have before := h.front (unchanged.symm.trans unfinished) (by simp [pending])
        obtain rfl := List.eq_nil_of_length_eq_zero empty
        exact (congrFun (congrArg ReceiveView.buffer view) 0).trans before
    | fail i f call event pending failed view => exact keep _ view rfl rfl le_rfl
    | resume slice size n held short view =>
      have stays := (congrArg ReceiveView.receives view).symm.trans
        ((ready slice size n held).trans held)
      exact absurd stays (ReceiveView.ask_free rfl _ _ n)
    | finish slice size n held full view =>
      have stays := (congrArg ReceiveView.receives view).symm.trans
        ((ready slice size n held).trans held)
      exact absurd stays (ReceiveView.finish_free rfl _ _ n)
    | aborted call held =>
      exact absurd (sound.receive_system held) (by decide)
    | stop call r f held bad view => exact keep _ view rfl rfl le_rfl
    | eof size held view => exact keep _ view rfl rfl le_rfl

/-- A session reports a mismatch exactly when its mode finds one in the chunks it was given. -/
theorem judged {c : SessionConfiguration} (accepted : Accepted c) {draws : Nat → Nat} {now : Nat}
    {events : List (Nat × Event)} (reach : Session.Reaches c draws now events s) :
    Judged ((Session.create c draws now).chunksGiven events) s := by
  suffices Sound s ∧ Judged ((Session.create c draws now).chunksGiven events) s from this.2
  refine Machine.run_induction (fun events s =>
    Sound s ∧ Judged ((Session.create c draws now).chunksGiven events) s) ?_ ?_ reach
  · refine ⟨Sound.create accepted draws now, ⟨rfl, ?_⟩, fun _ _ => rfl⟩
    cases hv : c.verify <;>
      simp [Session.create, Session.aborts, Mismatched, Session.chunksGiven, Machine.collect, hv]
  · rintro events s ⟨t, e⟩ s' reach ⟨sound, h⟩ hs
    refine ⟨sound.step hs, ?_⟩
    rw [Session.chunksGiven, Machine.collect_concat reach]
    exact h.step sound hs

end NetTester

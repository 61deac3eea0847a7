import NetTester.Finished
import NetTester.StreamPair

namespace NetTester

/-- Bytes that the verification of a session objects to, where the first one is at a position of the
transfer and all are written over the front of the buffer. With `first` an empty datagram is judged
by what the buffer held before it. -/
def Objects (verify : Verify) (buffer : Nat → UInt8) (position : Nat) (data : List UInt8) : Prop :=
  match verify with
  | .none => False
  | .first => writeBuffer buffer data 0 ≠ UInt8.ofNat position
  | .all => ∃ i b, data[i]? = some b ∧ b ≠ UInt8.ofNat (position + i)

/-- The completions that justify a code given to `abort`, in the state in which they are queued. -/
inductive Causes (s : Session) : Completion → ErrorCode → Prop
  | mismatch (slice size i : Nat) (data : List UInt8)
      (pending : s.receives = [⟨⟨.onReceive slice, size⟩, none⟩])
      (wrong : Objects s.configuration.verify s.receiveBuffer
        s.statistics.receivedBytesCount.value data) :
      Causes s (.received i (.ok data)) (.tester .dataMismatch)
  | unexpectedEof (slice size i : Nat) (pending : s.receives = [⟨⟨.onReceive slice, size⟩, none⟩])
      (short : s.statistics.receivedBytesCount.value < s.configuration.size.value) :
      Causes s (.received i (.error .eof)) (.tester .unexpectedEof)
  | unexpectedData (size i : Nat) (data : List UInt8)
      (pending : s.receives = [⟨⟨.onEof, size⟩, none⟩]) (nonempty : data ≠ [])
      (full : s.configuration.direction = .tx ∨
        s.configuration.size.value ≤ s.statistics.receivedBytesCount.value) :
      Causes s (.received i (.ok data)) (.tester .unexpectedData)
  | receive (i : Nat) (f : ErrorCode) (system : f.isSystem = true) (other : f ≠ .eof) :
      Causes s (.received i (.error f)) f
  | send (i : Nat) (f : ErrorCode) (system : f.isSystem = true) : Causes s (.sent i (.error f)) f
  | timeout (i : Nat) : Causes s (.timedOut i) (.tester .testTimeout)
  | signal (n : Signal) : Causes s (.signalled n) (.tester n.error)

section

variable {s s' : Session} {t : Nat} {e : Event}

theorem objects_of_mismatches {v : ReceiveView} {verify : Verify} {data : List UInt8}
    {buffer : Nat → UInt8} (filled : v.buffer = writeBuffer buffer data)
    (reported : v.mismatches verify data.length ≠ 0) :
    Objects verify buffer v.received.value data := by
  cases verify with
  | none => exact absurd rfl reported
  | first =>
    intro expected
    apply reported
    rw [ReceiveView.mismatches, filled, if_pos expected]
  | all =>
    have counter : v.received.value = v.received.value % 2 ^ 64 :=
      (Nat.mod_eq_of_lt v.received.bounded).symm
    simp only [ne_eq, mismatches_all_eq_zero counter, not_forall] at reported
    obtain ⟨i, bound, differs⟩ := reported
    refine ⟨i, data[i], List.getElem?_eq_getElem bound, ?_⟩
    rwa [filled, writeBuffer, List.getElem?_eq_getElem bound] at differs

/-- The bytes of a completed receive, and their position, were those of its completion. -/
theorem received_ok_origin (sound : Sound s) (hs : s.step (t, e) = some s') {call : ReceiveCall}
    {n : Nat} (held : s'.receives = [⟨call, some (.ok n)⟩]) :
    (s.receives = s'.receives ∧ s'.receiveBuffer = s.receiveBuffer ∧
        s'.statistics.receivedBytesCount = s.statistics.receivedBytesCount) ∨
      ∃ i data, e = .complete (.received i (.ok data)) ∧ s.receives = [⟨call, none⟩] ∧
        n = data.length ∧ s'.receiveBuffer = writeBuffer s.receiveBuffer data ∧
        s'.statistics.receivedBytesCount = s.statistics.receivedBytesCount ∧
        (s.configuration.protocol = .tcp → data ≠ []) := by
  have kept : ∀ w : ReceiveView, s'.receiveView = w → w.receives = s.receives →
      w.buffer = s.receiveBuffer → w.received = s.statistics.receivedBytesCount →
      s.receives = s'.receives ∧ s'.receiveBuffer = s.receiveBuffer ∧
        s'.statistics.receivedBytesCount = s.statistics.receivedBytesCount := by
    rintro w rfl receives buffer received
    exact ⟨receives.symm, buffer, received⟩
  have free : ∀ w : ReceiveView, s'.receiveView = w → w.receives = [⟨call, some (.ok n)⟩] := by
    rintro w rfl
    exact held
  have ask : ∀ w : ReceiveView, w.receives = [] → ∀ slice, s'.receiveView ≠ w.ask slice :=
    fun w receives slice view => ReceiveView.ask_free receives slice call n (free _ view)
  have finish : ∀ w : ReceiveView, w.receives = [] →
      s'.receiveView ≠ w.finish s.configuration.protocol :=
    fun w receives view => ReceiveView.finish_free receives _ call n (free _ view)
  cases Session.step_receiveMove sound.tidy hs with
  | still view => exact .inl (kept _ view rfl rfl rfl)
  | start unstarted used view =>
    have receives := (sound.receive.idle unstarted).receives
    exact (ask _ (by exact receives) _ view).elim
  | startUnused unstarted unused view =>
    have receives := (sound.receive.idle unstarted).receives
    exact (finish _ (by exact receives) view).elim
  | expire x waits due view => exact .inl (kept _ view rfl rfl rfl)
  | slice x waits view =>
    have receives := (sound.receive.wait waits).receives
    exact (ask _ (by exact receives) _ view).elim
  | cancelled x f waits =>
    have result := (sound.receive.wait waits).result
    simp at result
  | fill i data call' event pending fits stream view =>
    have same := free _ view
    simp only [List.cons.injEq, Operation.mk.injEq, Option.some.injEq, Except.ok.injEq,
      and_true] at same
    obtain ⟨rfl, rfl⟩ := same
    exact .inr ⟨i, data, event, pending, rfl, congrArg ReceiveView.buffer view,
      congrArg ReceiveView.received view, stream⟩
  | fail i f call' event pending failed view =>
    have same := free _ view
    simp at same
  | resume slice size k ready short view =>
    exact (ask _ (by rfl) _ view).elim
  | finish slice size k ready full view =>
    exact (finish _ (by rfl) view).elim
  | aborted call' ready => exact absurd (sound.receive_system ready) (by decide)
  | stop call' r f ready bad view =>
    have same := free _ view
    simp at same
  | eof size ready view =>
    have same := free _ view
    simp at same

/-- A wait of the timer expires in its completion. -/
theorem timeout_origin (sound : Sound s) (hs : s.step (t, e) = some s')
    {o : Operation Int (Option ErrorCode)} (queued : o ∈ s'.timeoutTimer)
    (expired : o.result = some none) :
    (∃ o ∈ s.timeoutTimer, o.result = some none) ∨ ∃ i, e = .complete (.timedOut i) := by
  have kept : ∀ w : EndView, s'.endView = w → o ∈ w.timeoutTimer := by
    rintro w rfl
    exact queued
  have settled : o ∈ Operation.settle (some .operationAborted) s.timeoutTimer →
      ∃ o ∈ s.timeoutTimer, o.result = some none := by
    intro member
    obtain ⟨x, before, rfl⟩ := List.mem_map.mp member
    refine ⟨x, before, ?_⟩
    cases hr : x.result <;> simp_all
  cases Session.step_endMove sound.tidy hs with
  | chain step =>
    cases step with
    | still view => exact .inl ⟨o, kept _ view, expired⟩
    | finish view => exact .inl (settled (kept _ view))
  | arm duration i posted hi view =>
    rcases List.mem_append.mp (kept _ view) with member | member
    · exact .inl (settled member)
    · obtain rfl := List.mem_singleton.mp member
      simp [Operation.initiate] at expired
  | timedOut i after event => exact .inr ⟨i, event⟩
  | timeout i x failure after ready view =>
    obtain ⟨_, rfl⟩ := Operation.dequeue_eq_some ready
    exact .inl ⟨o, List.mem_of_mem_eraseIdx (kept _ view), expired⟩
  | signalled n event view => exact .inl ⟨o, kept _ view, expired⟩
  | signal i r after ready view => exact .inl ⟨o, kept _ view, expired⟩

/-- A wait for signals completes with the signal that was handed to the session. -/
theorem signal_origin (sound : Sound s) (hs : s.step (t, e) = some s') {n : Signal}
    {o : Operation Unit (Except ErrorCode Signal)} (queued : o ∈ s'.signals)
    (delivered : o.result = some (.ok n)) :
    (∃ o ∈ s.signals, o.result = some (.ok n)) ∨ e = .complete (.signalled n) := by
  have kept : ∀ w : EndView, s'.endView = w → o ∈ w.signals := by
    rintro w rfl
    exact queued
  cases Session.step_endMove sound.tidy hs with
  | chain step =>
    cases step with
    | still view => exact .inl ⟨o, kept _ view, delivered⟩
    | finish view =>
      obtain ⟨x, before, rfl⟩ := List.mem_map.mp (kept _ view)
      refine .inl ⟨x, before, ?_⟩
      cases hr : x.result <;> simp_all
  | arm duration i posted hi view => exact .inl ⟨o, kept _ view, delivered⟩
  | timedOut i after event completes view => exact .inl ⟨o, kept _ view, delivered⟩
  | timeout i x failure after ready view => exact .inl ⟨o, kept _ view, delivered⟩
  | signalled m event view =>
    obtain ⟨x, before, rfl⟩ := List.mem_map.mp (kept _ view)
    cases hr : x.result with
    | none =>
      obtain rfl : m = n := by simpa [hr] using delivered
      exact .inr event
    | some r => exact .inl ⟨x, before, by simpa [hr] using delivered⟩
  | signal i r after ready view =>
    obtain ⟨_, rfl⟩ := Operation.dequeue_eq_some ready
    exact .inl ⟨o, List.mem_of_mem_eraseIdx (kept _ view), delivered⟩

/-- A cause that a handler finds was there before the event, or is the completion that the event
is. -/
theorem AbortCause.origin {f : ErrorCode} {n : Nat} (h : AbortCause s' f n) (positive : n ≠ 0)
    (sound : Sound s) (hs : s.step (t, e) = some s') :
    (∃ m, AbortCause s f m ∧ m ≠ 0) ∨
      ∃ completion, e = .complete completion ∧ Causes s completion f := by
  have frame := Session.step_frame sound.tidy hs
  cases h with
  | none => exact absurd rfl positive
  | mismatch slice size k ready =>
    rcases received_ok_origin sound hs ready with
      ⟨same, buffer, received⟩ | ⟨i, data, event, pending, rfl, buffer, received, stream⟩
    · have buffer : s'.receiveView.buffer = s.receiveView.buffer := buffer
      have received : s'.receiveView.received = s.receiveView.received := received
      refine .inl ⟨_, .mismatch slice size k (same.trans ready), ?_⟩
      unfold ReceiveView.mismatches at positive ⊢
      rwa [frame.configuration, buffer, received] at positive
    · refine .inr ⟨_, event, .mismatch slice size i data pending ?_⟩
      have objects := objects_of_mismatches buffer positive
      rw [frame.configuration] at objects
      have position : s'.receiveView.received = s.statistics.receivedBytesCount := received
      rwa [position] at objects
  | unexpectedEof slice size ready =>
    by_cases receiving : ∃ i, e = .complete (.received i (.error .eof))
    · obtain ⟨i, rfl⟩ := receiving
      cases Session.step_cases sound.tidy hs with
      | receiveFails f call pending =>
        obtain rfl : call = ⟨.onReceive slice, size⟩ := by simpa using ready
        exact .inr ⟨_, rfl, .unexpectedEof slice size 0 pending
          (sound.receive.slice pending).short⟩
    · rcases receive_error_origin sound hs ready with same | event
      · exact .inl ⟨1, .unexpectedEof slice size (same.trans ready), one_ne_zero⟩
      · exact absurd event receiving
  | unexpectedData size k ready =>
    rcases received_ok_origin sound hs ready with
      ⟨same, _⟩ | ⟨i, data, event, pending, rfl, _, _, stream⟩
    · exact .inl ⟨1, .unexpectedData size k (same.trans ready), one_ne_zero⟩
    · have probing := sound.receive.probe pending
      refine .inr ⟨_, event, .unexpectedData size i data pending (stream probing.stream) ?_⟩
      exact probing.ended.imp (fun h => h.1) (fun h => h.2.1)
  | receive call f other ready =>
    rcases receive_error_origin sound hs ready with same | ⟨i, event⟩
    · exact .inl ⟨1, .receive call f other (same.trans ready), one_ne_zero⟩
    · exact .inr ⟨_, event, .receive i f ((sound.step hs).receive_system ready) other⟩
  | send call f ready =>
    rcases send_error_origin sound hs ready with same | ⟨i, event⟩
    · exact .inl ⟨1, .send call f (same.trans ready), one_ne_zero⟩
    · exact .inr ⟨_, event, .send i f ((sound.step hs).send_system ready)⟩
  | timeout o queued ready =>
    rcases timeout_origin sound hs queued ready with ⟨o, before, expired⟩ | ⟨i, event⟩
    · exact .inl ⟨1, .timeout o before expired, one_ne_zero⟩
    · exact .inr ⟨_, event, .timeout i⟩
  | signal o queued k ready =>
    rcases signal_origin sound hs queued ready with ⟨o, before, delivered⟩ | event
    · exact .inl ⟨1, .signal o before k delivered, one_ne_zero⟩
    · exact .inr ⟨_, event, .signal k⟩

end

/-- A completion of the run justifies the code, in the state that the run had reached by then. -/
def Caused (start : Session) (events : List (Nat × Event)) (f : ErrorCode) : Prop :=
  ∃ before t completion after u, events = before ++ (t, .complete completion) :: after ∧
    Machine.run Session.step start before = some u ∧ Causes u completion f

theorem Caused.concat {start : Session} {events : List (Nat × Event)} {f : ErrorCode}
    (h : Caused start events f) (event : Nat × Event) : Caused start (events ++ [event]) f := by
  obtain ⟨before, t, completion, after, u, rfl, reach, causes⟩ := h
  exact ⟨before, t, completion, after ++ [event], u, by simp, reach, causes⟩

theorem Caused.of_reaches {c : SessionConfiguration} (accepted : Accepted c) {draws : Nat → Nat}
    {now : Nat} {events : List (Nat × Event)} {s : Session}
    (reach : Session.Reaches c draws now events s) {f : ErrorCode} (recorded : f ∈ s.aborts) :
    Caused (.create c draws now) events f := by
  suffices all : (∀ f ∈ s.aborts, Caused (.create c draws now) events f) ∧
      ∀ f n, AbortCause s f n → n ≠ 0 → Caused (.create c draws now) events f from
    all.1 f recorded
  refine Machine.run_induction (fun events s =>
    (∀ f ∈ s.aborts, Caused (.create c draws now) events f) ∧
      ∀ f n, AbortCause s f n → n ≠ 0 → Caused (.create c draws now) events f) ?_ ?_ reach
  · refine ⟨by simp [Session.aborts, Session.create], fun f n cause positive => ?_⟩
    cases cause <;> simp_all [Session.create, Operation.initiate]
  · rintro events s ⟨t, e⟩ s' reach ⟨recorded, pending⟩ hs
    obtain ⟨sound, _, _⟩ := Sound.of_reaches accepted reach
    refine ⟨fun f member => ?_, fun f n cause positive => ?_⟩
    · rcases (Session.step_frame sound.tidy hs).reports.cause member with old | ⟨n, cause, positive⟩
      · exact (recorded f old).concat _
      · exact (pending f n cause positive).concat _
    · rcases cause.origin positive sound hs with ⟨m, before, positive⟩ | ⟨completion, rfl, causes⟩
      · exact (pending f m before positive).concat _
      · exact ⟨events, t, completion, [], s, rfl, reach, causes⟩

/-- What `finalize` returns was given to `abort`. -/
theorem Sound.finalize_mem {s : Session} (sound : Sound s) {f : ErrorCode}
    (failed : s.finalize = some f) : f ∈ s.aborts :=
  List.mem_of_head? (sound.ending.failure.symm.trans failed)

/-- No failure is invented: every code that a session gives to `abort` was justified by a completion
of its run, and `finalize` returns one of these codes whenever it returns a failure. -/
theorem failures_caused {c : SessionConfiguration} (accepted : Accepted c) {draws : Nat → Nat}
    {now : Nat} {events : List (Nat × Event)} {s : Session}
    (reach : Session.Reaches c draws now events s) :
    (∀ f ∈ s.aborts, Caused (.create c draws now) events f) ∧
      ∀ f, s.finalize = some f → Caused (.create c draws now) events f := by
  obtain ⟨sound, _, _⟩ := Sound.of_reaches accepted reach
  have all : ∀ f ∈ s.aborts, Caused (.create c draws now) events f :=
    fun f => Caused.of_reaches accepted reach
  exact ⟨all, fun f failed => all f (sound.finalize_mem failed)⟩

/-- A datagram session whose timer expires before its last send is handled. -/
def lateTimer : List (Nat × Event) :=
  lastSend ++ [(2, .complete (.timedOut 0)), (2, .invoke (.onTimeout 0))]

theorem failures_caused_lateTimer : ∃ s, Session.Reaches
    { defaultConfiguration "127.0.0.1:1234" ⟨1, .iec, by decide⟩ with
      protocol := .udp, direction := .tx }
    (fun _ => 0) 0 lateTimer s ∧ Caused (.create
      { defaultConfiguration "127.0.0.1:1234" ⟨1, .iec, by decide⟩ with
        protocol := .udp, direction := .tx } (fun _ => 0) 0) lateTimer (.tester .testTimeout) := by
  refine Machine.exists_run Session.finalize (b := some (.tester .testTimeout))
    (by decide +kernel) ?_
  intro s reach failed
  exact (failures_caused (accepted_iff.mpr (by decide)) reach).2 _ failed

end NetTester

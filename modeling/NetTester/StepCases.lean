import NetTester.SessionStep

namespace NetTester

/-- At most one operation of each kind is outstanding, and none of a chain that is not running. -/
structure Tidy (s : Session) : Prop where
  receives : s.receives.length ≤ 1
  sends : s.sends.length ≤ 1
  receiveWaits : s.receiveThrottle.waits.length ≤ 1
  sendWaits : s.sendThrottle.waits.length ≤ 1
  receiveComplete : s.isReceiveComplete = true → s.receives = []
  sendComplete : s.isSendComplete = true → s.sends = []
  unstarted : s.statistics.startDate = none → s.receives = [] ∧ s.sends = [] ∧
    s.isReceiveComplete = false ∧ s.isSendComplete = false
  connects : s.opens.length ≤ 1
  opens : s.opens ≠ [] → s.statistics.startDate = none
  posts : Posted.startTimerAndTransfer ∈ s.posts → s.statistics.startDate = none

/-- The failure that a signal is reported as. -/
def Signal.error : Signal → Error
  | .sigint => .userInterrupt
  | .sigterm => .programTermination
  | .sighup => .unknownSignal

namespace Session

theorem completeReceive_ok {s s' : Session} {t i : Nat} {data : List UInt8} (tidy : Tidy s)
    (h : { s with now := t }.completeReceive i (.ok data) = some s') :
    i = 0 ∧ ∃ c, s.receives = [⟨c, none⟩] ∧ data.length ≤ c.bufferSize ∧
      (s.configuration.protocol = .tcp → data ≠ []) ∧
      s' = { s with
        now := t
        receiveBuffer := writeBuffer s.receiveBuffer data
        receives := [⟨c, some (.ok data.length)⟩] } := by
  simp only [completeReceive] at h
  split at h
  next => simp at h
  next stream =>
    obtain ⟨receives, hc, rfl⟩ := Option.map_eq_some_iff.mp h
    obtain ⟨rfl, c, pending, fits, rfl⟩ := Operation.complete_single tidy.receives hc
    exact ⟨rfl, c, pending, fits, fun tcp empty => stream ⟨tcp, empty⟩, rfl⟩

theorem completeReceive_error {s s' : Session} {t i : Nat} {f : ErrorCode} (tidy : Tidy s)
    (h : { s with now := t }.completeReceive i (.error f) = some s') :
    i = 0 ∧ ∃ c, s.receives = [⟨c, none⟩] ∧ f.isSystem = true ∧
      s' = { s with now := t, receives := [⟨c, some (.error f)⟩] } := by
  simp only [completeReceive] at h
  split at h
  next => simp at h
  next failed =>
    obtain ⟨receives, hc, rfl⟩ := Option.map_eq_some_iff.mp h
    obtain ⟨rfl, c, pending, _, rfl⟩ := Operation.complete_single tidy.receives hc
    exact ⟨rfl, c, pending, (Bool.not_eq_false _).mp failed, rfl⟩

theorem completeSend_ok {s s' : Session} {t i n : Nat} (tidy : Tidy s)
    (h : { s with now := t }.completeSend i (.ok n) = some s') :
    i = 0 ∧ ∃ c, s.sends = [⟨c, none⟩] ∧ n ≤ c.size ∧
      s' = { s with now := t, sends := [⟨c, some (.ok n)⟩] } := by
  obtain ⟨sends, hc, rfl⟩ := Option.map_eq_some_iff.mp h
  obtain ⟨rfl, c, pending, fits, rfl⟩ := Operation.complete_single tidy.sends hc
  exact ⟨rfl, c, pending, fits, rfl⟩

theorem completeSend_error {s s' : Session} {t i : Nat} {f : ErrorCode} (tidy : Tidy s)
    (h : { s with now := t }.completeSend i (.error f) = some s') :
    i = 0 ∧ ∃ c, s.sends = [⟨c, none⟩] ∧ f.isSystem = true ∧
      s' = { s with now := t, sends := [⟨c, some (.error f)⟩] } := by
  simp only [completeSend] at h
  split at h
  next => simp at h
  next failed =>
    obtain ⟨sends, hc, rfl⟩ := Option.map_eq_some_iff.mp h
    obtain ⟨rfl, c, pending, _, rfl⟩ := Operation.complete_single tidy.sends hc
    exact ⟨rfl, c, pending, (Bool.not_eq_false _).mp failed, rfl⟩

/-- All that one event can do to a tidy session, with what the event asks of the session. -/
inductive StepCases (s : Session) (t : Nat) : Event → Session → Prop
  | opened (i : Nat) (failure : Option ErrorCode) (after : List (Operation Unit (Option ErrorCode)))
      (completes : Operation.complete (fun _ => True) failure s.opens i = some after) :
      StepCases s t (.complete (.opened i failure)) { s with now := t, opens := after }
  | received (data : List UInt8) (c : ReceiveCall) (pending : s.receives = [⟨c, none⟩])
      (fits : data.length ≤ c.bufferSize)
      (stream : s.configuration.protocol = .tcp → data ≠ []) :
      StepCases s t (.complete (.received 0 (.ok data))) { s with
        now := t
        receiveBuffer := writeBuffer s.receiveBuffer data
        receives := [⟨c, some (.ok data.length)⟩] }
  | receiveFails (f : ErrorCode) (c : ReceiveCall) (pending : s.receives = [⟨c, none⟩])
      (failed : f.isSystem = true) :
      StepCases s t (.complete (.received 0 (.error f))) { s with
        now := t
        receives := [⟨c, some (.error f)⟩] }
  | sent (n : Nat) (c : SendCall) (pending : s.sends = [⟨c, none⟩]) (fits : n ≤ c.size) :
      StepCases s t (.complete (.sent 0 (.ok n))) { s with
        now := t
        sends := [⟨c, some (.ok n)⟩] }
  | sendFails (f : ErrorCode) (c : SendCall) (pending : s.sends = [⟨c, none⟩])
      (failed : f.isSystem = true) :
      StepCases s t (.complete (.sent 0 (.error f))) { s with
        now := t
        sends := [⟨c, some (.error f)⟩] }
  | receiveExpires (x : Nat) (pending : s.receiveThrottle.waits = [⟨x, none⟩]) (due : x ≤ t) :
      StepCases s t (.complete (.receiveSlice 0)) { s with
        now := t
        receiveThrottle := { s.receiveThrottle with waits := [⟨x, some none⟩] } }
  | sendExpires (x : Nat) (pending : s.sendThrottle.waits = [⟨x, none⟩]) (due : x ≤ t) :
      StepCases s t (.complete (.sendSlice 0)) { s with
        now := t
        sendThrottle := { s.sendThrottle with waits := [⟨x, some none⟩] } }
  | timedOut (i : Nat) (after : List (Operation Int (Option ErrorCode)))
      (completes : Operation.complete (fun _ => True) none s.timeoutTimer i = some after) :
      StepCases s t (.complete (.timedOut i)) { s with now := t, timeoutTimer := after }
  | signalled (n : Signal) : StepCases s t (.complete (.signalled n)) { s with
      now := t
      signals := Operation.settle (.ok n) s.signals }
  | connect (i : Nat) (failure : Option ErrorCode)
      (after : List (Operation Unit (Option ErrorCode)))
      (ready : Operation.dequeue s.opens i = some ((), failure, after)) :
      StepCases s t (.invoke (.onConnect i)) { s with now := t, opens := after }.startTransfer
  | startTimer (i : Nat) (duration : Int) (posted : s.posts[i]? = some .startTimer)
      (estimate : estimateTestDuration s.configuration = some duration) :
      StepCases s t (.invoke (.posted i)) { s with
        now := t
        posts := s.posts.eraseIdx i
        timeoutTimer := Operation.settle (some .operationAborted) s.timeoutTimer ++
          [Operation.initiate duration] }
  | startTimerAndTransfer (i : Nat) (duration : Int)
      (posted : s.posts[i]? = some .startTimerAndTransfer)
      (estimate : estimateTestDuration s.configuration = some duration) :
      StepCases s t (.invoke (.posted i)) { s with
        now := t
        posts := s.posts.eraseIdx i
        timeoutTimer := Operation.settle (some ErrorCode.operationAborted) s.timeoutTimer ++
          [Operation.initiate duration] }.startTransfer
  | onReceive (slice size : Nat) (r : Except ErrorCode Nat)
      (ready : s.receives = [⟨⟨.onReceive slice, size⟩, some r⟩]) :
      StepCases s t (.invoke (.onReceive 0))
        ({ s with now := t, receives := [] }.onReceive r slice)
  | onEof (size : Nat) (r : Except ErrorCode Nat)
      (ready : s.receives = [⟨⟨.onEof, size⟩, some r⟩]) :
      StepCases s t (.invoke (.onReceive 0))
        (TcpSession.onEof r { s with now := t, receives := [] })
  | onSend (c : SendCall) (r : Except ErrorCode Nat) (ready : s.sends = [⟨c, some r⟩]) :
      StepCases s t (.invoke (.onSend 0)) ({ s with now := t, sends := [] }.onSend r c)
  | receiveSlice (x : Nat) (ready : s.receiveThrottle.waits = [⟨x, some none⟩]) :
      StepCases s t (.invoke (.receiveThrottle 0)) ({ s with
        now := t
        receiveThrottle := { s.receiveThrottle with waits := [] }.startSlice t }.asyncReceive
          s.receiveThrottle.sliceBytesCount)
  | receiveCancelled (x : Nat) (f : ErrorCode)
      (ready : s.receiveThrottle.waits = [⟨x, some (some f)⟩]) :
      StepCases s t (.invoke (.receiveThrottle 0)) { s with
        now := t
        receiveThrottle := { s.receiveThrottle with waits := [] } }
  | sendSlice (x : Nat) (ready : s.sendThrottle.waits = [⟨x, some none⟩]) :
      StepCases s t (.invoke (.sendThrottle 0)) ({ s with
        now := t
        sendThrottle := { s.sendThrottle with waits := [] }.startSlice t }.asyncSend
          s.sendThrottle.sliceBytesCount)
  | sendCancelled (x : Nat) (f : ErrorCode)
      (ready : s.sendThrottle.waits = [⟨x, some (some f)⟩]) :
      StepCases s t (.invoke (.sendThrottle 0)) { s with
        now := t
        sendThrottle := { s.sendThrottle with waits := [] } }
  | timeout (i : Nat) (x : Int) (after : List (Operation Int (Option ErrorCode)))
      (ready : Operation.dequeue s.timeoutTimer i = some (x, none, after)) :
      StepCases s t (.invoke (.onTimeout i))
        ({ s with now := t, timeoutTimer := after }.abort (.tester .testTimeout))
  | timeoutCancelled (i : Nat) (x : Int) (f : ErrorCode)
      (after : List (Operation Int (Option ErrorCode)))
      (ready : Operation.dequeue s.timeoutTimer i = some (x, some f, after)) :
      StepCases s t (.invoke (.onTimeout i)) { s with now := t, timeoutTimer := after }
  | signal (i : Nat) (n : Signal) (after : List (Operation Unit (Except ErrorCode Signal)))
      (ready : Operation.dequeue s.signals i = some ((), .ok n, after)) :
      StepCases s t (.invoke (.onSignal i))
        ({ s with now := t, signals := after }.abort (.tester n.error))
  | signalCancelled (i : Nat) (f : ErrorCode)
      (after : List (Operation Unit (Except ErrorCode Signal)))
      (ready : Operation.dequeue s.signals i = some ((), .error f, after)) :
      StepCases s t (.invoke (.onSignal i)) { s with now := t, signals := after }

theorem complete_cases {s s' : Session} {t : Nat} {completion : Completion} (tidy : Tidy s)
    (h : { s with now := t }.complete completion = some s') :
    StepCases s t (.complete completion) s' := by
  cases completion with
  | opened i failure =>
    obtain ⟨after, completes, rfl⟩ := Option.map_eq_some_iff.mp h
    exact .opened i failure after completes
  | received i r =>
    cases r with
    | ok data =>
      obtain ⟨rfl, c, pending, fits, stream, rfl⟩ := completeReceive_ok tidy h
      exact .received data c pending fits stream
    | error f =>
      obtain ⟨rfl, c, pending, failed, rfl⟩ := completeReceive_error tidy h
      exact .receiveFails f c pending failed
  | sent i r =>
    cases r with
    | ok n =>
      obtain ⟨rfl, c, pending, fits, rfl⟩ := completeSend_ok tidy h
      exact .sent n c pending fits
    | error f =>
      obtain ⟨rfl, c, pending, failed, rfl⟩ := completeSend_error tidy h
      exact .sendFails f c pending failed
  | receiveSlice i =>
    obtain ⟨throttle, hc, rfl⟩ := Option.map_eq_some_iff.mp h
    obtain ⟨waits, hw, rfl⟩ := Option.map_eq_some_iff.mp hc
    obtain ⟨rfl, x, pending, due, rfl⟩ := Operation.complete_single tidy.receiveWaits hw
    exact .receiveExpires x pending due
  | sendSlice i =>
    obtain ⟨throttle, hc, rfl⟩ := Option.map_eq_some_iff.mp h
    obtain ⟨waits, hw, rfl⟩ := Option.map_eq_some_iff.mp hc
    obtain ⟨rfl, x, pending, due, rfl⟩ := Operation.complete_single tidy.sendWaits hw
    exact .sendExpires x pending due
  | timedOut i =>
    obtain ⟨after, completes, rfl⟩ := Option.map_eq_some_iff.mp h
    exact .timedOut i after completes
  | signalled n =>
    cases Option.some.inj h
    exact .signalled n

theorem invoke_cases {s s' : Session} {t : Nat} {handler : Handler} (tidy : Tidy s)
    (h : { s with now := t }.invoke handler = some s') : StepCases s t (.invoke handler) s' := by
  cases handler with
  | onConnect i =>
    obtain ⟨⟨_, failure, after⟩, ready, rfl⟩ := Option.map_eq_some_iff.mp h
    exact .connect i failure after ready
  | posted i =>
    obtain ⟨posted, hi, h⟩ := Option.bind_eq_some_iff.mp h
    cases posted with
    | startTimer =>
      obtain ⟨duration, estimate, rfl⟩ := Option.map_eq_some_iff.mp h
      exact .startTimer i duration hi estimate
    | startTimerAndTransfer =>
      obtain ⟨u, hu, rfl⟩ := Option.map_eq_some_iff.mp h
      obtain ⟨duration, estimate, rfl⟩ := Option.map_eq_some_iff.mp hu
      exact .startTimerAndTransfer i duration hi estimate
  | onReceive i =>
    obtain ⟨⟨⟨handler, size⟩, r, after⟩, hd, rfl⟩ := Option.map_eq_some_iff.mp h
    obtain ⟨rfl, ready, rfl⟩ := Operation.dequeue_single tidy.receives hd
    cases handler with
    | onReceive slice => exact .onReceive slice size r ready
    | onEof => exact .onEof size r ready
  | onSend i =>
    obtain ⟨⟨c, r, after⟩, hd, rfl⟩ := Option.map_eq_some_iff.mp h
    obtain ⟨rfl, ready, rfl⟩ := Operation.dequeue_single tidy.sends hd
    exact .onSend c r ready
  | receiveThrottle i =>
    obtain ⟨⟨x, failure, after⟩, hd, rfl⟩ := Option.map_eq_some_iff.mp h
    obtain ⟨rfl, ready, rfl⟩ := Operation.dequeue_single tidy.receiveWaits hd
    cases failure with
    | none => exact .receiveSlice x ready
    | some f => exact .receiveCancelled x f ready
  | sendThrottle i =>
    obtain ⟨⟨x, failure, after⟩, hd, rfl⟩ := Option.map_eq_some_iff.mp h
    obtain ⟨rfl, ready, rfl⟩ := Operation.dequeue_single tidy.sendWaits hd
    cases failure with
    | none => exact .sendSlice x ready
    | some f => exact .sendCancelled x f ready
  | onTimeout i =>
    obtain ⟨⟨x, failure, after⟩, ready, rfl⟩ := Option.map_eq_some_iff.mp h
    cases failure with
    | none => exact .timeout i x after ready
    | some f => exact .timeoutCancelled i x f after ready
  | onSignal i =>
    obtain ⟨⟨_, r, after⟩, ready, rfl⟩ := Option.map_eq_some_iff.mp h
    cases r with
    | error f => exact .signalCancelled i f after ready
    | ok n => cases n <;> exact .signal (s := s) i _ after ready

theorem step_cases {s s' : Session} {t : Nat} {e : Event} (tidy : Tidy s)
    (h : s.step (t, e) = some s') : StepCases s t e s' := by
  obtain ⟨_, _, h⟩ := step_eq_some h
  cases e with
  | complete completion => exact complete_cases tidy h
  | invoke handler => exact invoke_cases tidy h

end Session

end NetTester

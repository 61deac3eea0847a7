import NetTester.Machine
import NetTester.Session

namespace NetTester

/-- What the system does to an outstanding operation: its result is queued for the handler. -/
inductive Completion
  | opened (i : Nat) (failure : Option ErrorCode)
  | received (i : Nat) (result : Except ErrorCode (List UInt8))
  | sent (i : Nat) (result : Except ErrorCode Nat)
  | receiveSlice (i : Nat)
  | sendSlice (i : Nat)
  | timedOut (i : Nat)
  | signalled (signal : Signal)
deriving DecidableEq

/-- The handler that `poll_one` picks, by its place among the operations of its kind. -/
inductive Handler
  | onConnect (i : Nat)
  | posted (i : Nat)
  | onReceive (i : Nat)
  | onSend (i : Nat)
  | receiveThrottle (i : Nat)
  | sendThrottle (i : Nat)
  | onTimeout (i : Nat)
  | onSignal (i : Nat)
deriving DecidableEq

inductive Event
  | complete (completion : Completion)
  | invoke (handler : Handler)
deriving DecidableEq

namespace Session

/-- A receive ends with a failure of the system, or with as many bytes as fit the buffer. A stream
gives at least one byte, a datagram may be empty. -/
def completeReceive (i : Nat) (result : Except ErrorCode (List UInt8)) (s : Session) :
    Option Session :=
  match result with
  | .error failure =>
    if failure.isSystem = false then
      none
    else
      (Operation.complete (fun _ => True) (.error failure) s.receives i).map fun receives =>
        { s with receives := receives }
  | .ok data =>
    if s.configuration.protocol = .tcp ∧ data = [] then
      none
    else
      (Operation.complete (fun c => data.length ≤ c.bufferSize) (.ok data.length)
        s.receives i).map fun receives =>
          { s with receives := receives, receiveBuffer := writeBuffer s.receiveBuffer data }

def completeSend (i : Nat) (result : Except ErrorCode Nat) (s : Session) : Option Session :=
  match result with
  | .error failure =>
    if failure.isSystem = false then
      none
    else
      (Operation.complete (fun _ => True) (.error failure) s.sends i).map fun sends =>
        { s with sends := sends }
  | .ok n =>
    (Operation.complete (fun c => n ≤ c.size) (.ok n) s.sends i).map fun sends =>
      { s with sends := sends }

/-- The deadline of the timeout timer is one of the wall clock, which may be set at any moment, so
the timer may expire at any moment. -/
def complete (s : Session) : Completion → Option Session
  | .opened i failure =>
    (Operation.complete (fun _ => True) failure s.opens i).map fun opens =>
      { s with opens := opens }
  | .received i result => s.completeReceive i result
  | .sent i result => s.completeSend i result
  | .receiveSlice i =>
    (s.receiveThrottle.expire s.now i).map fun throttle => { s with receiveThrottle := throttle }
  | .sendSlice i =>
    (s.sendThrottle.expire s.now i).map fun throttle => { s with sendThrottle := throttle }
  | .timedOut i =>
    (Operation.complete (fun _ => True) none s.timeoutTimer i).map fun timeoutTimer =>
      { s with timeoutTimer := timeoutTimer }
  | .signalled signal => some { s with signals := Operation.settle (.ok signal) s.signals }

/-- The lambdas of `initialize` in the two kinds of session. -/
def runPosted (posted : Posted) (s : Session) : Option Session :=
  match posted with
  | .startTimer => s.startTimer
  | .startTimerAndTransfer => s.startTimer.map startTransfer

def handleReceive (c : ReceiveCall) (result : Except ErrorCode Nat) (s : Session) : Session :=
  match c.handler with
  | .onReceive sliceRemainingSize => s.onReceive result sliceRemainingSize
  | .onEof => TcpSession.onEof result s

/-- The wait handlers of the throttles, with the functor each session passes. -/
def handleReceiveThrottle (failure : Option ErrorCode) (s : Session) : Session :=
  match failure with
  | some _ => s
  | none =>
    { s with receiveThrottle := s.receiveThrottle.startSlice s.now }.asyncReceive
      s.receiveThrottle.sliceBytesCount

def handleSendThrottle (failure : Option ErrorCode) (s : Session) : Session :=
  match failure with
  | some _ => s
  | none =>
    { s with sendThrottle := s.sendThrottle.startSlice s.now }.asyncSend
      s.sendThrottle.sliceBytesCount

def handleTimeout (failure : Option ErrorCode) (s : Session) : Session :=
  match failure with
  | some _ => s
  | none => s.abort (.tester .testTimeout)

def handleSignal (result : Except ErrorCode Signal) (s : Session) : Session :=
  match result with
  | .error _ => s
  | .ok .sigint => s.abort (.tester .userInterrupt)
  | .ok .sigterm => s.abort (.tester .programTermination)
  | .ok .sighup => s.abort (.tester .unknownSignal)

/-- An operation is released before its handler runs. -/
def invoke (s : Session) : Handler → Option Session
  | .onConnect i =>
    (Operation.dequeue s.opens i).map fun (_, _, opens) => { s with opens := opens }.startTransfer
  | .posted i =>
    s.posts[i]?.bind fun posted => { s with posts := s.posts.eraseIdx i }.runPosted posted
  | .onReceive i =>
    (Operation.dequeue s.receives i).map fun (c, result, receives) =>
      { s with receives := receives }.handleReceive c result
  | .onSend i =>
    (Operation.dequeue s.sends i).map fun (c, result, sends) =>
      { s with sends := sends }.onSend result c
  | .receiveThrottle i =>
    (Operation.dequeue s.receiveThrottle.waits i).map fun (_, failure, waits) =>
      { s with receiveThrottle := { s.receiveThrottle with waits := waits } }.handleReceiveThrottle
        failure
  | .sendThrottle i =>
    (Operation.dequeue s.sendThrottle.waits i).map fun (_, failure, waits) =>
      { s with sendThrottle := { s.sendThrottle with waits := waits } }.handleSendThrottle failure
  | .onTimeout i =>
    (Operation.dequeue s.timeoutTimer i).map fun (_, failure, timeoutTimer) =>
      { s with timeoutTimer := timeoutTimer }.handleTimeout failure
  | .onSignal i =>
    (Operation.dequeue s.signals i).map fun (_, result, signals) =>
      { s with signals := signals }.handleSignal result

def dispatch (s : Session) : Event → Option Session
  | .complete completion => s.complete completion
  | .invoke handler => s.invoke handler

/-- One event at an instant. The clock never goes back, and nothing follows a failed assertion. -/
def step (s : Session) (event : Nat × Event) : Option Session :=
  if s.now ≤ event.1 ∧ s.assertionFailed = false then
    { s with now := event.1 }.dispatch event.2
  else
    none

/-- The session that the constructor and `initialize` leave. -/
def create (c : SessionConfiguration) (draws : Nat → Nat) (now : Nat) : Session where
  configuration := c
  now := now
  signals := [Operation.initiate ()]
  timeoutTimer := []
  posts := if c.protocol = .tcp then [.startTimer] else [.startTimerAndTransfer]
  statistics := ⟨none, .zero, 0, .zero, 0⟩
  failure := none
  exitRequested := false
  sendThrottle :=
    .create c.sendBandwidth.value c.bandwidthSamplingFrequency now
  receiveBuffer := fun _ => 0
  receiveThrottle :=
    .create c.receiveBandwidth.value c.bandwidthSamplingFrequency now
  isReceiveComplete := false
  isSendComplete := false
  isOpen := true
  isShutdown := false
  opens := if c.protocol = .tcp then [Operation.initiate ()] else []
  receives := []
  sends := []
  draws := draws
  drawn := 0
  assertionFailed := false
  accepted := []
  calls := []

/-- The session reached from its creation along a list of events. -/
def Reaches (c : SessionConfiguration) (draws : Nat → Nat) (now : Nat) (events : List (Nat × Event))
    (s : Session) : Prop :=
  Machine.run step (create c draws now) events = some s

theorem step_eq_some {s s' : Session} {t : Nat} {e : Event} (h : s.step (t, e) = some s') :
    s.now ≤ t ∧ s.assertionFailed = false ∧ { s with now := t }.dispatch e = some s' := by
  unfold step at h
  split at h
  next guard => exact ⟨guard.1, guard.2, h⟩
  next => simp at h

/-- A receive that completes queues its result, and its bytes go to the receive buffer. -/
theorem completeReceive_frame {s s' : Session} {i : Nat} {r : Except ErrorCode (List UInt8)}
    (h : s.completeReceive i r = some s') :
    ∃ receives buffer, s' = { s with receives := receives, receiveBuffer := buffer } := by
  cases r with
  | error f =>
    simp only [completeReceive] at h
    split at h
    next => simp at h
    next =>
      obtain ⟨receives, _, rfl⟩ := Option.map_eq_some_iff.mp h
      exact ⟨receives, s.receiveBuffer, rfl⟩
  | ok data =>
    simp only [completeReceive] at h
    split at h
    next => simp at h
    next =>
      obtain ⟨receives, _, rfl⟩ := Option.map_eq_some_iff.mp h
      exact ⟨receives, _, rfl⟩

theorem completeSend_frame {s s' : Session} {i : Nat} {r : Except ErrorCode Nat}
    (h : s.completeSend i r = some s') : ∃ sends, s' = { s with sends := sends } := by
  cases r with
  | error f =>
    simp only [completeSend] at h
    split at h
    next => simp at h
    next =>
      obtain ⟨sends, _, rfl⟩ := Option.map_eq_some_iff.mp h
      exact ⟨sends, rfl⟩
  | ok n =>
    obtain ⟨sends, _, rfl⟩ := Option.map_eq_some_iff.mp h
    exact ⟨sends, rfl⟩

/-- No operation of the session is outstanding. -/
def isIdle (s : Session) : Bool :=
  s.opens.isEmpty && s.posts.isEmpty && s.receives.isEmpty && s.sends.isEmpty &&
    s.receiveThrottle.waits.isEmpty && s.sendThrottle.waits.isEmpty && s.timeoutTimer.isEmpty &&
    s.signals.isEmpty

/-- Only a signal can still reach an idle session, and it finds no wait. -/
theorem isIdle_step {s s' : Session} {t : Nat} {e : Event} (idle : s.isIdle = true)
    (hs : s.step (t, e) = some s') :
    (∃ n, e = .complete (.signalled n)) ∧ s'.isIdle = true := by
  have empty := idle
  simp only [isIdle, Bool.and_eq_true, List.isEmpty_iff, and_assoc] at empty
  obtain ⟨opens, posts, receives, sends, receiveWaits, sendWaits, timeoutTimer, signals⟩ := empty
  obtain ⟨_, _, hs⟩ := step_eq_some hs
  cases e with
  | complete completion =>
    cases completion with
    | opened i failure => simp [dispatch, complete, opens] at hs
    | received i r => cases r <;> simp [dispatch, complete, completeReceive, receives] at hs
    | sent i r => cases r <;> simp [dispatch, complete, completeSend, sends] at hs
    | receiveSlice i => simp [dispatch, complete, BandwidthThrottle.expire, receiveWaits] at hs
    | sendSlice i => simp [dispatch, complete, BandwidthThrottle.expire, sendWaits] at hs
    | timedOut i => simp [dispatch, complete, timeoutTimer] at hs
    | signalled n =>
      cases Option.some.inj hs
      exact ⟨⟨n, rfl⟩, by simp only [isIdle, opens, posts, receives, sends, receiveWaits, sendWaits,
        timeoutTimer, signals]; rfl⟩
  | invoke handler => cases handler <;> simp_all [dispatch, invoke]

end Session

end NetTester

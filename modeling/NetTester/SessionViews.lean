import Mathlib.Logic.Function.Iterate
import NetTester.SessionStep

namespace NetTester

/-- What the receive chain reads and writes, with the number of its ends. -/
structure ReceiveView where
  startDate : Option Nat
  received : Size
  buffer : Nat → UInt8
  throttle : BandwidthThrottle
  receives : List (Operation ReceiveCall (Except ErrorCode Nat))
  isComplete : Bool
  finishes : Nat

/-- What the send chain reads and writes, with the number of its ends. -/
structure SendView where
  startDate : Option Nat
  sent : Size
  accepted : List UInt8
  throttle : BandwidthThrottle
  sends : List (Operation SendCall (Except ErrorCode Nat))
  isComplete : Bool
  assertionFailed : Bool
  finishes : Nat

/-- How the session reports failures: its own record, the request to exit, its calls of `abort`. -/
structure Report where
  failure : Option ErrorCode
  exitRequested : Bool
  aborts : List ErrorCode

/-- What outlives the chains: the waits on time and signals, and the end of the session. -/
structure EndView where
  signals : List (Operation Unit (Except ErrorCode Signal))
  timeoutTimer : List (Operation Int (Option ErrorCode))
  isOpen : Bool
  finishes : Nat

/-- What no handler of a chain touches. -/
structure Setting where
  configuration : SessionConfiguration
  now : Nat
  draws : Nat → Nat
  opens : List (Operation Unit (Option ErrorCode))
  posts : List Posted

def Call.failure? : Call → Option ErrorCode
  | .abort failure => some failure
  | _ => none

namespace Session

/-- The codes given to `abort` so far, latest first. -/
def aborts (s : Session) : List ErrorCode := s.calls.filterMap Call.failure?

def receiveView (s : Session) : ReceiveView :=
  ⟨s.statistics.startDate, s.statistics.receivedBytesCount, s.receiveBuffer, s.receiveThrottle,
    s.receives, s.isReceiveComplete, s.calls.count .finishReceive⟩

def sendView (s : Session) : SendView :=
  ⟨s.statistics.startDate, s.statistics.sentBytesCount, s.accepted, s.sendThrottle, s.sends,
    s.isSendComplete, s.assertionFailed, s.calls.count .finishSend⟩

def report (s : Session) : Report := ⟨s.failure, s.exitRequested, s.aborts⟩

def endView (s : Session) : EndView :=
  ⟨s.signals, s.timeoutTimer, s.isOpen, s.calls.count .onFinish⟩

def setting (s : Session) : Setting := ⟨s.configuration, s.now, s.draws, s.opens, s.posts⟩

end Session

/-- `receiveSlice` on the view: wait for the next slice, or read within the current one. -/
def ReceiveView.ask (sliceRemainingSize : Nat) (v : ReceiveView) : ReceiveView :=
  if sliceRemainingSize = 0 then
    { v with throttle := v.throttle.delay }
  else
    { v with receives := v.receives ++
        [Operation.initiate ⟨.onReceive sliceRemainingSize, min sliceRemainingSize bufferSize⟩] }

/-- `finish_receive` on the view: a stream is probed for its end, datagrams have none. -/
def ReceiveView.finish (protocol : Protocol) (v : ReceiveView) : ReceiveView :=
  match protocol with
  | .tcp => { v with
      receives := v.receives ++ [Operation.initiate ⟨.onEof, 1⟩], finishes := v.finishes + 1 }
  | .udp => { v with isComplete := true, finishes := v.finishes + 1 }

/-- How many of the bytes from an index on differ from consecutive expected values. -/
def mismatchesFrom (buffer : Nat → UInt8) : Nat → Nat → UInt8 → Nat
  | 0, _, _ => 0
  | n + 1, i, expected =>
    mismatchesFrom buffer n (i + 1) (expected + 1) + if buffer i = expected then 0 else 1

/-- How many mismatches `verify` reports. -/
def ReceiveView.mismatches (verify : Verify) (n : Nat) (v : ReceiveView) : Nat :=
  match verify with
  | .none => 0
  | .first => if v.buffer 0 = UInt8.ofNat v.received.value then 0 else 1
  | .all => mismatchesFrom v.buffer n 0 (UInt8.ofNat v.received.value)

/-- A number that the distribution of datagram sizes may yield. -/
def Drawn (c : SessionConfiguration) (draws : Nat → Nat) (m : Nat) : Prop :=
  if c.packetSize.low.value = c.packetSize.high.value then m = c.packetSize.low.value
  else ∃ k, m = draws k

/-- The buffer that `async_send` offers out of a slice. -/
structure Offered (c : SessionConfiguration) (draws : Nat → Nat) (sent sliceRemainingSize : Nat)
    (call : SendCall) : Prop where
  offset : call.offset = sent % 2 ^ 8
  slice : call.sliceRemainingSize = min sliceRemainingSize (sub64 c.size.value sent)
  stream : c.protocol = .tcp →
    call.size = min call.sliceRemainingSize (bufferSize - call.offset)
  datagram : c.protocol = .udp → call.size ≤ bufferSize - call.offset ∧
    ∃ m, Drawn c draws m ∧ call.size = min call.sliceRemainingSize m

/-- `async_send` on the view. -/
inductive SendAsk (c : SessionConfiguration) (draws : Nat → Nat) (sliceRemainingSize : Nat)
    (v : SendView) : SendView → Prop
  | wait (zero : sliceRemainingSize = 0) :
      SendAsk c draws sliceRemainingSize v { v with throttle := v.throttle.delay }
  | offer (positive : sliceRemainingSize ≠ 0) (call : SendCall)
      (offered : Offered c draws v.sent.value sliceRemainingSize call) :
      SendAsk c draws sliceRemainingSize v { v with sends := v.sends ++ [Operation.initiate call] }
  | assertion (udp : c.protocol = .udp) (m : Nat) (drawn : Drawn c draws m)
      (outside : bufferSize - v.sent.value % 2 ^ 8 <
        min (min sliceRemainingSize (sub64 c.size.value v.sent.value)) m) :
      SendAsk c draws sliceRemainingSize v { v with assertionFailed := true }

/-- `finish_send` on the view. -/
def SendView.finish (v : SendView) : SendView :=
  { v with isComplete := true, finishes := v.finishes + 1 }

/-- `on_finish` on the view. -/
def EndView.finish (v : EndView) : EndView where
  signals := Operation.settle (.error .operationAborted) v.signals
  timeoutTimer := Operation.settle (some .operationAborted) v.timeoutTimer
  isOpen := false
  finishes := v.finishes + 1

def Report.abort (failure : ErrorCode) (r : Report) : Report :=
  ⟨some failure, true, failure :: r.aborts⟩

namespace Session

variable (s : Session)

@[simp] theorem abort_receiveView (f : ErrorCode) : (s.abort f).receiveView = s.receiveView := by
  simp [receiveView, abort]

@[simp] theorem abort_sendView (f : ErrorCode) : (s.abort f).sendView = s.sendView := by
  simp [sendView, abort]

@[simp] theorem abort_endView (f : ErrorCode) : (s.abort f).endView = s.endView := by
  simp [endView, abort]

@[simp] theorem abort_setting (f : ErrorCode) : (s.abort f).setting = s.setting := rfl

@[simp] theorem abort_report (f : ErrorCode) : (s.abort f).report = s.report.abort f := rfl

theorem verifyLoop_induction {P : Session → Prop} {n i : Nat} {expected : UInt8} {s : Session}
    (start : P s) (next : ∀ s, P s → P (s.abort (.tester .dataMismatch))) :
    P (verifyLoop n i expected s) := by
  induction n generalizing i expected s with
  | zero => exact start
  | succ n ih =>
    apply ih
    unfold verifyByte
    split
    next => exact next s start
    next => exact start

/-- Verification only aborts, so what an abort preserves it preserves. -/
theorem verify_induction {P : Session → Prop} {n : Nat} {s : Session} (start : P s)
    (next : ∀ s, P s → P (s.abort (.tester .dataMismatch))) : P (s.verify n) := by
  simp only [verify]
  split
  next => exact start
  next =>
    unfold verifyByte
    split
    next => exact next s start
    next => exact start
  next => exact verifyLoop_induction start next

@[simp] theorem verify_receiveView (n : Nat) : (s.verify n).receiveView = s.receiveView :=
  verify_induction (P := fun u => u.receiveView = s.receiveView) rfl
    (fun u h => (abort_receiveView u _).trans h)

@[simp] theorem verify_sendView (n : Nat) : (s.verify n).sendView = s.sendView :=
  verify_induction (P := fun u => u.sendView = s.sendView) rfl
    (fun u h => (abort_sendView u _).trans h)

@[simp] theorem verify_endView (n : Nat) : (s.verify n).endView = s.endView :=
  verify_induction (P := fun u => u.endView = s.endView) rfl
    (fun u h => (abort_endView u _).trans h)

@[simp] theorem verify_setting (n : Nat) : (s.verify n).setting = s.setting :=
  verify_induction (P := fun u => u.setting = s.setting) rfl (fun _ h => h)

theorem verifyByte_report (i : Nat) (expected : UInt8) :
    (s.verifyByte i expected).report =
      (Report.abort (.tester .dataMismatch))^[if s.receiveBuffer i = expected then 0 else 1]
        s.report := by
  by_cases h : s.receiveBuffer i = expected <;> simp [verifyByte, h]

theorem verifyByte_receiveBuffer (i : Nat) (expected : UInt8) :
    (s.verifyByte i expected).receiveBuffer = s.receiveBuffer := by
  unfold verifyByte
  split <;> rfl

theorem verifyLoop_report (n i : Nat) (expected : UInt8) :
    (verifyLoop n i expected s).report =
      (Report.abort (.tester .dataMismatch))^[mismatchesFrom s.receiveBuffer n i expected]
        s.report := by
  induction n generalizing i expected s with
  | zero => rfl
  | succ n ih =>
    rw [verifyLoop, ih, verifyByte_report, verifyByte_receiveBuffer, mismatchesFrom,
      Function.iterate_add_apply]

theorem verify_report (n : Nat) :
    (s.verify n).report =
      (Report.abort (.tester .dataMismatch))^[s.receiveView.mismatches s.configuration.verify n]
        s.report := by
  unfold verify ReceiveView.mismatches
  cases s.configuration.verify with
  | none => rfl
  | first => exact verifyByte_report s 0 _
  | all => exact verifyLoop_report s n 0 _

theorem asyncReceive_eq (n : Nat) : s.asyncReceive n = s.receiveSlice n := by
  unfold asyncReceive
  split <;> rfl

@[simp] theorem asyncReceive_receiveView (n : Nat) :
    (s.asyncReceive n).receiveView = s.receiveView.ask n := by
  rw [asyncReceive_eq, receiveSlice, ReceiveView.ask]
  split <;> rfl

@[simp] theorem asyncReceive_sendView (n : Nat) : (s.asyncReceive n).sendView = s.sendView := by
  rw [asyncReceive_eq, receiveSlice]
  split <;> rfl

@[simp] theorem asyncReceive_endView (n : Nat) : (s.asyncReceive n).endView = s.endView := by
  rw [asyncReceive_eq, receiveSlice]
  split <;> rfl

@[simp] theorem asyncReceive_setting (n : Nat) : (s.asyncReceive n).setting = s.setting := by
  rw [asyncReceive_eq, receiveSlice]
  split <;> rfl

@[simp] theorem asyncReceive_report (n : Nat) : (s.asyncReceive n).report = s.report := by
  rw [asyncReceive_eq, receiveSlice]
  split <;> rfl

theorem onReceiveComplete_receiveView (idle : s.receives = []) :
    s.onReceiveComplete.receiveView = { s.receiveView with isComplete := true } := by
  simp only [onReceiveComplete]
  split <;> simp [receiveView, onFinish, close, idle]

theorem onReceiveComplete_sendView (idle : s.isSendComplete = true → s.sends = []) :
    s.onReceiveComplete.sendView = s.sendView := by
  simp only [onReceiveComplete]
  split
  next h => simp [sendView, onFinish, close, idle h]
  next => rfl

@[simp] theorem onReceiveComplete_setting : s.onReceiveComplete.setting = s.setting := by
  simp only [onReceiveComplete]
  split <;> rfl

@[simp] theorem onReceiveComplete_report : s.onReceiveComplete.report = s.report := by
  simp only [onReceiveComplete]
  split <;> rfl

theorem onReceiveComplete_endView :
    s.onReceiveComplete.endView = if s.isSendComplete then s.endView.finish else s.endView := by
  simp only [onReceiveComplete]
  split <;> simp_all [endView, EndView.finish, onFinish, close]

theorem onSendComplete_sendView (idle : s.sends = []) :
    s.onSendComplete.sendView = { s.sendView with isComplete := true } := by
  simp only [onSendComplete]
  split <;> simp [sendView, onFinish, close, idle]

theorem onSendComplete_receiveView (idle : s.isReceiveComplete = true → s.receives = []) :
    s.onSendComplete.receiveView = s.receiveView := by
  simp only [onSendComplete]
  split
  next h => simp [receiveView, onFinish, close, idle h]
  next => rfl

@[simp] theorem onSendComplete_setting : s.onSendComplete.setting = s.setting := by
  simp only [onSendComplete]
  split <;> rfl

@[simp] theorem onSendComplete_report : s.onSendComplete.report = s.report := by
  simp only [onSendComplete]
  split <;> rfl

theorem onSendComplete_endView :
    s.onSendComplete.endView = if s.isReceiveComplete then s.endView.finish else s.endView := by
  simp only [onSendComplete]
  split <;> simp_all [endView, EndView.finish, onFinish, close]

theorem finishReceive_receiveView (idle : s.receives = []) :
    s.finishReceive.receiveView = s.receiveView.finish s.configuration.protocol := by
  unfold finishReceive
  cases s.configuration.protocol with
  | tcp =>
    simp only [TcpSession.finishReceive]
    split <;>
      simp [receiveView, ReceiveView.finish, startReceive, shutdownSend, stampReceive, bufferSize]
  | udp =>
    apply (onReceiveComplete_receiveView s.stampReceive idle).trans
    simp [receiveView, ReceiveView.finish, stampReceive]

theorem finishReceive_sendView (idle : s.isSendComplete = true → s.sends = []) :
    s.finishReceive.sendView = s.sendView := by
  unfold finishReceive
  cases s.configuration.protocol with
  | tcp =>
    simp only [TcpSession.finishReceive]
    split <;> simp [sendView, startReceive, shutdownSend, stampReceive]
  | udp =>
    apply (onReceiveComplete_sendView s.stampReceive idle).trans
    simp [sendView, stampReceive]

@[simp] theorem finishReceive_setting : s.finishReceive.setting = s.setting := by
  unfold finishReceive
  split
  next =>
    simp only [TcpSession.finishReceive]
    split <;> rfl
  next => exact onReceiveComplete_setting s.stampReceive

@[simp] theorem finishReceive_report : s.finishReceive.report = s.report := by
  unfold finishReceive
  split
  next =>
    simp only [TcpSession.finishReceive]
    split <;> rfl
  next => exact onReceiveComplete_report s.stampReceive

theorem finishReceive_endView :
    s.finishReceive.endView =
      if s.configuration.protocol = .udp ∧ s.isSendComplete = true then s.endView.finish
      else s.endView := by
  unfold finishReceive
  cases s.configuration.protocol with
  | tcp =>
    simp only [TcpSession.finishReceive, reduceCtorEq, false_and, if_false]
    split <;> simp [endView, startReceive, shutdownSend, stampReceive]
  | udp =>
    apply (onReceiveComplete_endView s.stampReceive).trans
    simp [endView, stampReceive]

theorem finishSend_sendView (idle : s.sends = []) :
    s.finishSend.sendView = s.sendView.finish := by
  unfold finishSend
  cases s.configuration.protocol with
  | tcp =>
    simp only [TcpSession.finishSend]
    split
    next => exact (onSendComplete_sendView s.stampSend.shutdownSend idle).trans
              (by simp [sendView, SendView.finish, shutdownSend, stampSend])
    next => exact (onSendComplete_sendView s.stampSend idle).trans
              (by simp [sendView, SendView.finish, stampSend])
  | udp =>
    apply (onSendComplete_sendView s.stampSend idle).trans
    simp [sendView, SendView.finish, stampSend]

theorem finishSend_receiveView (idle : s.isReceiveComplete = true → s.receives = []) :
    s.finishSend.receiveView = s.receiveView := by
  unfold finishSend
  cases s.configuration.protocol with
  | tcp =>
    simp only [TcpSession.finishSend]
    split
    next =>
      apply (onSendComplete_receiveView s.stampSend.shutdownSend idle).trans
      simp [receiveView, shutdownSend, stampSend]
    next =>
      apply (onSendComplete_receiveView s.stampSend idle).trans
      simp [receiveView, stampSend]
  | udp =>
    apply (onSendComplete_receiveView s.stampSend idle).trans
    simp [receiveView, stampSend]

@[simp] theorem finishSend_setting : s.finishSend.setting = s.setting := by
  unfold finishSend
  split
  next =>
    simp only [TcpSession.finishSend]
    split <;> exact onSendComplete_setting _
  next => exact onSendComplete_setting _

@[simp] theorem finishSend_report : s.finishSend.report = s.report := by
  unfold finishSend
  split
  next =>
    simp only [TcpSession.finishSend]
    split <;> exact onSendComplete_report _
  next => exact onSendComplete_report _

theorem finishSend_endView :
    s.finishSend.endView = if s.isReceiveComplete then s.endView.finish else s.endView := by
  unfold finishSend
  cases s.configuration.protocol with
  | tcp =>
    simp only [TcpSession.finishSend]
    split
    next => exact (onSendComplete_endView s.stampSend.shutdownSend).trans
              (by simp [endView, shutdownSend, stampSend])
    next => exact (onSendComplete_endView s.stampSend).trans (by simp [endView, stampSend])
  | udp => exact (onSendComplete_endView s.stampSend).trans (by simp [endView, stampSend])

theorem getMaxDatagramSize_drawn :
    Drawn s.configuration s.draws (UdpSession.getMaxDatagramSize s).1 := by
  unfold Drawn UdpSession.getMaxDatagramSize
  split
  next => rfl
  next => exact ⟨_, rfl⟩

theorem getMaxDatagramSize_eq :
    ∃ drawn, (UdpSession.getMaxDatagramSize s).2 = { s with drawn := drawn } := by
  unfold UdpSession.getMaxDatagramSize
  split
  next => exact ⟨s.drawn, rfl⟩
  next => exact ⟨s.drawn + 1, rfl⟩

theorem asyncSend_sendView (n : Nat) :
    SendAsk s.configuration s.draws n s.sendView (s.asyncSend n).sendView := by
  unfold asyncSend
  cases hp : s.configuration.protocol with
  | tcp =>
    simp only [TcpSession.asyncSend]
    split
    next zero => exact .wait zero
    next positive =>
      exact .offer positive ⟨_, _, _⟩ ⟨rfl, rfl, fun _ => rfl, by simp [hp]⟩
  | udp =>
    simp only [UdpSession.asyncSend]
    obtain ⟨drawn, same⟩ := getMaxDatagramSize_eq s
    rw [same]
    split
    next zero => exact .wait zero
    next positive =>
      split
      next inside =>
        exact .offer positive ⟨_, _, _⟩
          ⟨rfl, rfl, by simp [hp], fun _ => ⟨inside, _, getMaxDatagramSize_drawn s, rfl⟩⟩
      next outside =>
        exact .assertion hp _ (getMaxDatagramSize_drawn s) (Nat.lt_of_not_le outside)

theorem asyncSend_zero :
    s.asyncSend 0 = { s with sendThrottle := s.sendThrottle.delay } := by
  unfold asyncSend
  split <;> rfl

/-- Nothing but the send side depends on what `async_send` does. -/
theorem asyncSend_induction {P : Session → Prop} (n : Nat) {s : Session}
    (next : ∀ throttle sends drawn failed, P { s with
      sendThrottle := throttle, sends := sends, drawn := drawn, assertionFailed := failed }) :
    P (s.asyncSend n) := by
  unfold asyncSend
  split
  next =>
    simp only [TcpSession.asyncSend]
    split
    next => exact next _ s.sends s.drawn s.assertionFailed
    next => exact next s.sendThrottle _ s.drawn s.assertionFailed
  next =>
    simp only [UdpSession.asyncSend]
    obtain ⟨drawn, same⟩ := getMaxDatagramSize_eq s
    rw [same]
    split
    next => exact next _ s.sends s.drawn s.assertionFailed
    next =>
      split
      next => exact next s.sendThrottle _ drawn s.assertionFailed
      next => exact next s.sendThrottle s.sends drawn true

@[simp] theorem asyncSend_receiveView (n : Nat) :
    (s.asyncSend n).receiveView = s.receiveView :=
  asyncSend_induction (P := fun u => u.receiveView = s.receiveView) n fun _ _ _ _ => rfl

@[simp] theorem asyncSend_endView (n : Nat) : (s.asyncSend n).endView = s.endView :=
  asyncSend_induction (P := fun u => u.endView = s.endView) n fun _ _ _ _ => rfl

@[simp] theorem asyncSend_setting (n : Nat) : (s.asyncSend n).setting = s.setting :=
  asyncSend_induction (P := fun u => u.setting = s.setting) n fun _ _ _ _ => rfl

@[simp] theorem asyncSend_report (n : Nat) : (s.asyncSend n).report = s.report :=
  asyncSend_induction (P := fun u => u.report = s.report) n fun _ _ _ _ => rfl

end Session

end NetTester

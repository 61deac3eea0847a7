import NetTester.BandwidthThrottle
import NetTester.SessionConfiguration

namespace NetTester

/-- The handler lambdas given to `async_receive`, with what they capture. -/
inductive ReceiveHandler
  | onReceive (sliceRemainingSize : Nat)
  | onEof
deriving DecidableEq

structure ReceiveCall where
  handler : ReceiveHandler
  bufferSize : Nat
deriving DecidableEq

/-- The part of `send_buffer_` given to `async_send`, with what its handler lambda captures. -/
structure SendCall where
  offset : Nat
  size : Nat
  sliceRemainingSize : Nat
deriving DecidableEq

/-- The lambdas that `initialize` posts: the TCP one and the UDP one. -/
inductive Posted
  | startTimer
  | startTimerAndTransfer
deriving DecidableEq

inductive Signal
  | sighup
  | sigint
  | sigterm
deriving DecidableEq, Repr

/-- The calls of interest that the session has made. -/
inductive Call
  | abort (failure : ErrorCode)
  | shutdownSend (sent received : Nat)
  | finishReceive
  | finishSend
  | onEof
  | onFinish
deriving DecidableEq

structure Statistics where
  startDate : Option Nat
  receivedBytesCount : Size
  receiveDuration : Nat
  sentBytesCount : Size
  sendDuration : Nat

/-- A session with the operations it has outstanding. The draws are the values its random
distribution yields. The last two fields are history: the bytes that completed sends reported as
accepted, and the calls, latest first. -/
structure Session where
  configuration : SessionConfiguration
  now : Nat
  signals : List (Operation Unit (Except ErrorCode Signal))
  timeoutTimer : List (Operation Int (Option ErrorCode))
  posts : List Posted
  statistics : Statistics
  failure : Option ErrorCode
  exitRequested : Bool
  sendThrottle : BandwidthThrottle
  receiveBuffer : Nat → UInt8
  receiveThrottle : BandwidthThrottle
  isReceiveComplete : Bool
  isSendComplete : Bool
  isOpen : Bool
  isShutdown : Bool
  opens : List (Operation Unit (Option ErrorCode))
  receives : List (Operation ReceiveCall (Except ErrorCode Nat))
  sends : List (Operation SendCall (Except ErrorCode Nat))
  draws : Nat → Nat
  drawn : Nat
  assertionFailed : Bool
  accepted : List UInt8
  calls : List Call

def bufferSize : Nat := 128 <<< 10

/-- `send_buffer_` as `Session::initialize` fills it, below `bufferSize`. -/
def sendBuffer (i : Nat) : UInt8 := UInt8.ofNat i

/-- What the kernel leaves in the receive buffer after writing a chunk at its start. -/
def writeBuffer (buffer : Nat → UInt8) (data : List UInt8) (i : Nat) : UInt8 :=
  data[i]?.getD (buffer i)

namespace Session

def call (c : Call) (s : Session) : Session := { s with calls := c :: s.calls }

/-- `Session::abort`: the exit request is for the whole application. -/
def abort (failure : ErrorCode) (s : Session) : Session :=
  { s with
    exitRequested := true
    failure := some failure
    calls := .abort failure :: s.calls }

/-- `Session::verify(offset, expected_byte)`. -/
def verifyByte (offset : Nat) (expected : UInt8) (s : Session) : Session :=
  if s.receiveBuffer offset ≠ expected then s.abort (.tester .dataMismatch) else s

/-- The loop of `Session::verify`, with the number of iterations left. -/
def verifyLoop : Nat → Nat → UInt8 → Session → Session
  | 0, _, _, s => s
  | n + 1, i, expected, s => verifyLoop n (i + 1) (expected + 1) (s.verifyByte i expected)

def verify (bytesTransferred : Nat) (s : Session) : Session :=
  let expected := UInt8.ofNat s.statistics.receivedBytesCount.value
  match s.configuration.verify with
  | .none => s
  | .first => s.verifyByte 0 expected
  | .all => verifyLoop bytesTransferred 0 expected s

/-- `socket_.close()`: it cancels what the socket has outstanding. -/
def close (s : Session) : Session :=
  { s with
    isOpen := false
    receives := Operation.settle (.error .operationAborted) s.receives
    sends := Operation.settle (.error .operationAborted) s.sends }

def shutdownSend (s : Session) : Session :=
  { s with
    isShutdown := true
    calls := .shutdownSend s.statistics.sentBytesCount.value
      s.statistics.receivedBytesCount.value :: s.calls }

/-- `finish` only closes the socket, in both kinds of session. -/
def onFinish (s : Session) : Session :=
  close { s with
    signals := Operation.settle (.error .operationAborted) s.signals
    timeoutTimer := Operation.settle (some .operationAborted) s.timeoutTimer
    calls := .onFinish :: s.calls }

def onReceiveComplete (s : Session) : Session :=
  let s := { s with isReceiveComplete := true }
  if s.isSendComplete then s.onFinish else s

def onSendComplete (s : Session) : Session :=
  let s := { s with isSendComplete := true }
  if s.isReceiveComplete then s.onFinish else s

/-- `Session::finish_receive`, which both overrides call first. -/
def stampReceive (s : Session) : Session :=
  { s with
    statistics := { s.statistics with
      receiveDuration := s.now - s.statistics.startDate.getD 0 }
    calls := .finishReceive :: s.calls }

/-- `Session::finish_send`, which both overrides call first. -/
def stampSend (s : Session) : Session :=
  { s with
    statistics := { s.statistics with sendDuration := s.now - s.statistics.startDate.getD 0 }
    calls := .finishSend :: s.calls }

def startReceive (handler : ReceiveHandler) (size : Nat) (s : Session) : Session :=
  { s with receives := s.receives ++ [Operation.initiate ⟨handler, min size bufferSize⟩] }

def startSend (offset size sliceRemainingSize : Nat) (s : Session) : Session :=
  { s with sends := s.sends ++ [Operation.initiate ⟨offset, size, sliceRemainingSize⟩] }

/-- The body that `async_receive` has in both kinds of session. -/
def receiveSlice (sliceRemainingSize : Nat) (s : Session) : Session :=
  if sliceRemainingSize = 0 then
    { s with receiveThrottle := s.receiveThrottle.delay }
  else
    s.startReceive (.onReceive sliceRemainingSize) sliceRemainingSize

end Session

namespace TcpSession

def asyncReceive (sliceRemainingSize : Nat) (s : Session) : Session :=
  s.receiveSlice sliceRemainingSize

def finishReceive (s : Session) : Session :=
  let s := s.stampReceive
  let s := if s.configuration.shutdownPolicy = .receiveComplete then s.shutdownSend else s
  s.startReceive .onEof 1

def onEof (result : Except ErrorCode Nat) (s : Session) : Session :=
  let s := s.call .onEof
  let s := if s.configuration.shutdownPolicy = .waitForPeer then s.shutdownSend else s
  match result with
  | .error .eof => s.onReceiveComplete
  | .error failure => s.abort failure
  | .ok _ => s.abort (.tester .unexpectedData)

/-- The end of the stream is judged in a state that has half-closed or not, by the policy. -/
theorem onEof_cases (result : Except ErrorCode Nat) (s : Session) :
    ∃ u, (u = s.call .onEof ∨
        s.configuration.shutdownPolicy = .waitForPeer ∧ u = (s.call .onEof).shutdownSend) ∧
      onEof result s = match result with
        | .error .eof => u.onReceiveComplete
        | .error failure => u.abort failure
        | .ok _ => u.abort (.tester .unexpectedData) := by
  refine ⟨_, ?_, rfl⟩
  split
  next policy => exact .inr ⟨policy, rfl⟩
  next => exact .inl rfl

def asyncSend (sliceRemainingSize : Nat) (s : Session) : Session :=
  if sliceRemainingSize = 0 then
    { s with sendThrottle := s.sendThrottle.delay }
  else
    let remainingSize :=
      sub64 s.configuration.size.value s.statistics.sentBytesCount.value
    let sliceRemainingSize := min sliceRemainingSize remainingSize
    let offset := s.statistics.sentBytesCount.value % 2 ^ 8
    let size := min sliceRemainingSize (bufferSize - offset)
    s.startSend offset size sliceRemainingSize

def finishSend (s : Session) : Session :=
  let s := s.stampSend
  let s := if s.configuration.shutdownPolicy = .sendComplete then s.shutdownSend else s
  s.onSendComplete

end TcpSession

namespace UdpSession

def asyncReceive (sliceRemainingSize : Nat) (s : Session) : Session :=
  s.receiveSlice sliceRemainingSize

def finishReceive (s : Session) : Session := s.stampReceive.onReceiveComplete

/-- The size, and the session once the distribution has been drawn from if it has to be. -/
def getMaxDatagramSize (s : Session) : Nat × Session :=
  if s.configuration.packetSize.low.value = s.configuration.packetSize.high.value then
    (s.configuration.packetSize.low.value, s)
  else
    (s.draws s.drawn, { s with drawn := s.drawn + 1 })

/-- A failed assertion ends the process before the datagram is handed to the socket. -/
def asyncSend (sliceRemainingSize : Nat) (s : Session) : Session :=
  if sliceRemainingSize = 0 then
    { s with sendThrottle := s.sendThrottle.delay }
  else
    let remainingSize :=
      sub64 s.configuration.size.value s.statistics.sentBytesCount.value
    let sliceRemainingSize := min sliceRemainingSize remainingSize
    let offset := s.statistics.sentBytesCount.value % 2 ^ 8
    let (maxDatagramSize, s) := getMaxDatagramSize s
    let datagramSize := min sliceRemainingSize maxDatagramSize
    if datagramSize ≤ bufferSize - offset then
      s.startSend offset datagramSize sliceRemainingSize
    else
      { s with assertionFailed := true }

def finishSend (s : Session) : Session := s.stampSend.onSendComplete

end UdpSession

namespace Session

def asyncReceive (sliceRemainingSize : Nat) (s : Session) : Session :=
  match s.configuration.protocol with
  | .tcp => TcpSession.asyncReceive sliceRemainingSize s
  | .udp => UdpSession.asyncReceive sliceRemainingSize s

def finishReceive (s : Session) : Session :=
  match s.configuration.protocol with
  | .tcp => TcpSession.finishReceive s
  | .udp => UdpSession.finishReceive s

def asyncSend (sliceRemainingSize : Nat) (s : Session) : Session :=
  match s.configuration.protocol with
  | .tcp => TcpSession.asyncSend sliceRemainingSize s
  | .udp => UdpSession.asyncSend sliceRemainingSize s

def finishSend (s : Session) : Session :=
  match s.configuration.protocol with
  | .tcp => TcpSession.finishSend s
  | .udp => UdpSession.finishSend s

def countReceived (bytesTransferred : Nat) (s : Session) : Session :=
  { s with statistics := { s.statistics with
      receivedBytesCount := s.statistics.receivedBytesCount.add bytesTransferred } }

/-- The bytes that the socket took are the first ones of the buffer it was offered. -/
def countSent (offset bytesTransferred : Nat) (s : Session) : Session :=
  { s with
    accepted := s.accepted ++ (List.range bytesTransferred).map fun i => sendBuffer (offset + i)
    statistics := { s.statistics with
      sentBytesCount := s.statistics.sentBytesCount.add bytesTransferred } }

def onReceive (result : Except ErrorCode Nat) (sliceRemainingSize : Nat) (s : Session) :
    Session :=
  match result with
  | .error .operationAborted => s
  | .error .eof => s.abort (.tester .unexpectedEof)
  | .error failure => s.abort failure
  | .ok bytesTransferred =>
    let s := (s.verify bytesTransferred).countReceived bytesTransferred
    let size := sub64 sliceRemainingSize bytesTransferred
    if s.statistics.receivedBytesCount.value < s.configuration.size.value then
      s.asyncReceive size
    else
      s.finishReceive

def onSend (result : Except ErrorCode Nat) (c : SendCall) (s : Session) : Session :=
  match result with
  | .error .operationAborted => s
  | .error failure => s.abort failure
  | .ok bytesTransferred =>
    let s := s.countSent c.offset bytesTransferred
    let size := sub64 c.sliceRemainingSize bytesTransferred
    if s.statistics.sentBytesCount.value < s.configuration.size.value then
      s.asyncSend size
    else
      s.finishSend

/-- The first half of `start_transfer`: a side that is not used is finished at once. -/
def startReceiving (s : Session) : Session :=
  if s.configuration.direction = .tx then
    s.finishReceive
  else
    { s with receiveThrottle := s.receiveThrottle.reset s.now }.asyncReceive 0

/-- The second half of `start_transfer`. -/
def startSending (s : Session) : Session :=
  if s.configuration.direction = .rx then
    s.finishSend
  else
    { s with sendThrottle := s.sendThrottle.reset s.now }.asyncSend 0

def startTransfer (s : Session) : Session :=
  { s with statistics := { s.statistics with startDate := some s.now } }.startReceiving.startSending

/-- A count of microseconds has to fit the 64-bit ticks of a duration. -/
def ticks (n : Int) : Option Int := if -(2 ^ 63) ≤ n ∧ n < 2 ^ 63 then some n else none

/-- There is no duration when the division is by zero or a tick count overflows. -/
def estimateTestDuration (c : SessionConfiguration) : Option Int :=
  let bandwidth := min c.receiveBandwidth.value c.sendBandwidth.value
  if bandwidth = 0 then
    none
  else
    (ticks (((c.size.value / bandwidth + 1) % 2 ^ 64 : Nat) * 1000000)).bind fun duration =>
      ticks (duration + c.durationMargin.getD (duration / 10))

def startTimer (s : Session) : Option Session :=
  (estimateTestDuration s.configuration).map fun duration =>
    { s with
      timeoutTimer := Operation.settle (some .operationAborted) s.timeoutTimer ++
        [Operation.initiate duration] }

end Session

end NetTester

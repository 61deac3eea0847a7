import NetTester.Operation
import NetTester.Size

namespace NetTester

/-- The codes of `error::Error`. -/
inductive Error
  | success
  | genericFault
  | unexpectedEof
  | dataMismatch
  | testTimeout
  | unexpectedData
  | userInterrupt
  | programTermination
  | unknownSignal
deriving DecidableEq, Repr

/-- A `boost::system::error_code` that is set. Success is the absence of one. -/
inductive ErrorCode
  | system (value : Int)
  | operationAborted
  | eof
  | tester (error : Error)
deriving DecidableEq, Repr

/-- The codes that the system gives a socket operation that was not cancelled. -/
def ErrorCode.isSystem : ErrorCode → Bool
  | .system _ => true
  | .eof => true
  | _ => false

/-- Times are nanoseconds of one clock. The instants at which the throttle has called its functor
since the last reset are recorded in `firings`. -/
structure BandwidthThrottle where
  sliceBytesCount : Nat
  sliceDuration : Nat
  nextSliceStart : Nat
  waits : List (Operation Nat (Option ErrorCode))
  firings : List Nat

namespace BandwidthThrottle

def toSliceDuration (samplingFrequency : Nat) : Nat := 1000 * 1000 * 1000 / samplingFrequency

def toSliceBytesCount (bandwidth samplingFrequency : Nat) : Nat := bandwidth / samplingFrequency

def create (bandwidth samplingFrequency now : Nat) : BandwidthThrottle :=
  ⟨toSliceBytesCount bandwidth samplingFrequency, toSliceDuration samplingFrequency, now, [], []⟩

def reset (now : Nat) (throttle : BandwidthThrottle) : BandwidthThrottle :=
  { throttle with nextSliceStart := now, firings := [] }

/-- `delay` arms the timer for the start of the next slice; arming it cancels an earlier wait. -/
def delay (throttle : BandwidthThrottle) : BandwidthThrottle :=
  { throttle with
    waits := Operation.settle (some .operationAborted) throttle.waits ++
      [Operation.initiate throttle.nextSliceStart] }

/-- The part of the wait handler that precedes the call of the functor. -/
def startSlice (now : Nat) (throttle : BandwidthThrottle) : BandwidthThrottle :=
  { throttle with
    nextSliceStart := throttle.nextSliceStart + throttle.sliceDuration
    firings := throttle.firings ++ [now] }

/-- The timer of a wait expires: never before the instant it was armed for. -/
def expire (now i : Nat) (throttle : BandwidthThrottle) : Option BandwidthThrottle :=
  (Operation.complete (· ≤ now) none throttle.waits i).map fun waits =>
    { throttle with waits := waits }

end BandwidthThrottle

end NetTester

import Mathlib.Logic.Function.Basic
import NetTester.Finished

namespace NetTester

/-- Where a thread is in the loop of `Thread::run`. -/
inductive ThreadState
  | checking
  | polling
  | left
deriving DecidableEq

/-- How `Application::run` ends: it returns, it throws the first failure of its sessions or what the
creation of a session throws, or the process is killed. -/
inductive Outcome
  | returned
  | failed (failure : ErrorCode)
  | threw
  | killed
deriving DecidableEq

/-- The state of `Application::run`. The configurations are those whose sessions are yet to be
created, the session at an index belongs to the service of that index modulo the concurrency, and
`raised` are the signals that have reached the signal sets. -/
structure Application where
  configurations : List SessionConfiguration
  concurrency : Nat
  sessions : List Session
  started : Bool
  threads : Nat → ThreadState
  stopped : Nat → Bool
  exitRequested : Bool
  raised : List Signal
  outcome : Option Outcome

/-- A signal that reaches the process, a step of the main thread or of another one, or a completion
for a session. A poll that runs a handler gives the session, the instant and the handler. -/
inductive ApplicationEvent
  | signal (signal : Signal)
  | createSession (draws : Nat → Nat) (now : Nat)
  | createThrows
  | startThreads
  | complete (session now : Nat) (completion : Completion)
  | check (thread : Nat)
  | pollOne (thread : Nat) (handler : Option (Nat × Nat × Handler))
  | joinThreads

namespace Application

def getConcurrency (cores : Nat) : Nat := if cores = 0 then 1 else cores

/-- Before the first session exists a signal runs the handler of `install_signal_handlers`, which
leaves `SIGHUP` to its default. From then on the signal sets have replaced it. -/
def onSignal (signal : Signal) (a : Application) : Application :=
  if a.sessions ≠ [] then
    { a with raised := signal :: a.raised }
  else if signal = .sighup ∨ a.exitRequested = true then
    { a with outcome := some .killed }
  else
    { a with exitRequested := true }

/-- `create_session`: the socket of a datagram session rejects the server mode. -/
def createSession (draws : Nat → Nat) (now : Nat) (a : Application) : Option Application :=
  match a.configurations with
  | [] => none
  | c :: rest =>
    if c.protocol = .udp ∧ c.mode = .server then
      some { a with outcome := some .threw }
    else
      some { a with configurations := rest, sessions := a.sessions ++ [.create c draws now] }

/-- A signal set completes with signals that were raised only. -/
def Handed (a : Application) : Completion → Prop
  | .signalled signal => signal ∈ a.raised
  | _ => True

instance (a : Application) : DecidablePred (Handed a)
  | .signalled signal => inferInstanceAs (Decidable (signal ∈ a.raised))
  | .opened _ _ => .isTrue trivial
  | .received _ _ => .isTrue trivial
  | .sent _ _ => .isTrue trivial
  | .receiveSlice _ => .isTrue trivial
  | .sendSlice _ => .isTrue trivial
  | .timedOut _ => .isTrue trivial

/-- The exit request of a session is one for the whole application. -/
def setSession (session : Nat) (s : Session) (a : Application) : Application :=
  { a with
    sessions := a.sessions.set session s
    exitRequested := a.exitRequested || s.exitRequested }

def stepSession (session now : Nat) (e : Event) (a : Application) : Option Application :=
  a.sessions[session]?.bind fun s => (s.step (now, e)).map fun s' => a.setSession session s'

/-- A service has work as long as a session of it has an operation outstanding. -/
def hasWork (k : Nat) (a : Application) : Bool :=
  a.sessions.zipIdx.any fun (s, j) => j % a.concurrency = k && !s.isIdle

/-- The end of `poll_one`: a service that is out of work stops. -/
def polled (k : Nat) (a : Application) : Application :=
  { a with
    stopped := Function.update a.stopped k (a.stopped k || !a.hasWork k)
    threads := Function.update a.threads k .checking }

/-- The condition of the loop of `Thread::run`. -/
def check (k : Nat) (a : Application) : Application :=
  { a with
    threads := Function.update a.threads k
      (if a.exitRequested = false ∧ a.stopped k = false then .polling else .left) }

def firstFailure (sessions : List Session) : Option ErrorCode :=
  sessions.foldl (fun first s => first.or s.finalize) none

/-- What follows the joins: every session is finalized, and the first failure is thrown. -/
def joinThreads (a : Application) : Application :=
  { a with outcome := some ((firstFailure a.sessions).elim .returned .failed) }

def dispatch (a : Application) : ApplicationEvent → Option Application
  | .signal signal => some (a.onSignal signal)
  | .createSession draws now => a.createSession draws now
  | .createThrows => if a.configurations ≠ [] then some { a with outcome := some .threw } else none
  | .startThreads =>
    if a.configurations = [] ∧ a.started = false then some { a with started := true } else none
  | .complete session now completion =>
    if Handed a completion then a.stepSession session now (.complete completion) else none
  | .check k =>
    if a.started = true ∧ k < a.concurrency ∧ a.threads k = .checking then
      some (a.check k)
    else
      none
  | .pollOne k none => if a.threads k = .polling then some (a.polled k) else none
  | .pollOne k (some (session, now, handler)) =>
    if a.threads k = .polling ∧ session % a.concurrency = k then
      (a.stepSession session now (.invoke handler)).map (polled k)
    else
      none
  | .joinThreads =>
    if a.started = true ∧ ∀ k < a.concurrency, a.threads k = .left then some a.joinThreads else none

def step (a : Application) (event : ApplicationEvent) : Option Application :=
  if a.outcome = none then a.dispatch event else none

/-- `Application::run` when it has installed the signal handlers. -/
def create (configurations : List SessionConfiguration) (cores : Nat) : Application where
  configurations := configurations
  concurrency := getConcurrency cores
  sessions := []
  started := false
  threads := fun _ => .checking
  stopped := fun _ => false
  exitRequested := false
  raised := []
  outcome := none

end Application

end NetTester

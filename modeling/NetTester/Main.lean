import NetTester.CalmPair
import NetTester.Causes
import NetTester.CommandLine
import NetTester.ExitPrompt
import NetTester.FirstFailure
import NetTester.Interleaving

namespace NetTester

def Error.value : Error → Int
  | .success => 0
  | .genericFault => 1
  | .unexpectedEof => 2
  | .dataMismatch => 3
  | .testTimeout => 4
  | .unexpectedData => 5
  | .userInterrupt => 6
  | .programTermination => 7
  | .unknownSignal => 8

/-- The number of a code, whatever its category is. -/
def ErrorCode.value : ErrorCode → Int
  | .system value => value
  | .operationAborted => 125
  | .eof => 2
  | .tester error => error.value

/-- What `Executable::run` throws. -/
inductive Exception
  | systemError (code : ErrorCode)
  | other (what : String)

/-- `main`, after `Executable::run` has returned or thrown. -/
def main : Option Exception → Int
  | none => 0
  | some (.systemError code) => code.value
  | some (.other _) => 1

/-- How `Application::run` returns or throws, if the process is not killed. What the creation of a
session throws comes from the system. -/
def Outcome.thrown (creation : Exception) : Outcome → Option (Option Exception)
  | .returned => some none
  | .failed failure => some (some (.systemError failure))
  | .threw => some (some creation)
  | .killed => none

/-- What `main` returns when the events of its run have led `Application::run` to its end. -/
def Environment.exitStatus (env : Environment) (creation : Exception) (argv : List (List Char))
    (events : List ApplicationEvent) : Option Int :=
  match env.parse argv with
  | .error what => some (main (some (.other what)))
  | .ok configuration =>
    ((Machine.run Application.step (.create configuration.sessionConfigurations
      (toCpuCoreList configuration.cpus).length) events).bind fun a => a.outcome).bind
        fun outcome => (outcome.thrown creation).map main

def Completion.failure : Completion → Option ErrorCode
  | .opened _ failure => failure
  | .received _ (.error failure) => some failure
  | .sent _ (.error failure) => some failure
  | _ => none

/-- A completion that fails does so with a code that is not zero. -/
def ApplicationEvent.IsGenuine : ApplicationEvent → Prop
  | .complete _ _ completion => ∀ failure, completion.failure = some failure → failure.value ≠ 0
  | _ => True

/-- A session that has finished, with everything that it was to send in its socket, and everything
that it was to receive counted. -/
structure Transferred (s : Session) : Prop where
  finished : Call.onFinish ∈ s.calls
  sent : s.configuration.direction ≠ .rx →
    s.acceptedBySocket = pattern s.configuration.size.value
  received : s.configuration.direction ≠ .tx →
    s.configuration.size.value ≤ s.statistics.receivedBytesCount.value

theorem Transferred.of_done {s : Session} (sound : Sound s) (done : s.isDone = true) :
    Transferred s := by
  have complete := done
  simp only [Session.isDone, Bool.and_eq_true] at complete
  exact ⟨sound.onFinish_iff.mpr done,
    fun used => (Ceased.acceptedBySocket (.inr complete.2) sound used).2,
    fun used => sound.full_of_complete used complete.1⟩

/-- What a line gives has passed the checks. -/
theorem fillLine_accepted {options : ProgramOptions} {c c' : SessionConfiguration}
    {line : List Char} (h : fillLine options c line = .ok c') : Accepted c' := by
  obtain ⟨_, _, h⟩ := bind_eq_ok.mp h
  obtain ⟨args, _, filled⟩ := bind_eq_ok.mp h
  exact ⟨c, args, filled⟩

namespace Environment

variable {env : Environment} {argv : List (List Char)} {configuration : ApplicationConfiguration}

theorem parse_accepted (h : env.parse argv = .ok configuration) :
    ∀ c ∈ configuration.sessionConfigurations, Accepted c := by
  intro c member
  obtain ⟨_, _, h⟩ := bind_eq_ok.mp h
  obtain ⟨stored, _, configured⟩ := bind_eq_ok.mp h
  obtain ⟨_, parsed, _⟩ := configure_eq_ok.mp configured
  obtain ⟨line, filled⟩ := exists_forall₂_iff.mp ⟨_, (fillLines_eq_ok.mp parsed).flip⟩ c member
  exact fillLine_accepted filled

end Environment

/-- A genuine completion justifies codes that are not zero. -/
theorem Causes.value_ne_zero {s : Session} {completion : Completion} {f : ErrorCode}
    (h : Causes s completion f)
    (genuine : ∀ failure, completion.failure = some failure → failure.value ≠ 0) :
    f.value ≠ 0 := by
  cases h with
  | receive i f system other => exact genuine f rfl
  | send i f system => exact genuine f rfl
  | signal n => cases n <;> decide
  | _ => decide

namespace Application

variable {cs : List SessionConfiguration} {cores : Nat} {events : List ApplicationEvent}
  {a : Application}

/-- The failure that is thrown is the first one among the sessions. -/
theorem failed_cases (reach : Machine.run step (create cs cores) events = some a) {f : ErrorCode}
    (failed : a.outcome = some (.failed f)) : firstFailure a.sessions = some f := by
  refine Machine.run_invariant (fun a => a.outcome = some (.failed f) →
    firstFailure a.sessions = some f) ?_ (by simp [create]) reach failed
  intro a event a' _ hs failed
  obtain ⟨running, move⟩ := step_cases hs
  clear hs
  cases move with
  | signal n =>
    rcases (onSignal_frame n a).outcome with same | killed
    · exact absurd (running.symm.trans (same.symm.trans failed)) (by simp)
    · exact absurd (killed.symm.trans failed) (by simp)
  | joinThreads started left =>
    simp only [joinThreads, Option.some.injEq] at failed
    change firstFailure a.sessions = some f
    cases hf : firstFailure a.sessions with
    | none => simp [hf] at failed
    | some g =>
      rw [hf] at failed
      simpa using failed
  | createThrows event creation => simp at failed
  | _ => exact absurd (running.symm.trans failed) (by simp)

theorem firstFailure_eq_some {sessions : List Session} {f : ErrorCode} :
    firstFailure sessions = some f ↔ ∃ before s after, sessions = before ++ s :: after ∧
      s.finalize = some f ∧ ∀ u ∈ before, u.finalize = none := by
  have fold : ∀ first : Option ErrorCode,
      sessions.foldl (fun first s => first.or s.finalize) first =
        first.or (sessions.findSome? Session.finalize) := by
    induction sessions with
    | nil => simp
    | cons s others ih =>
      intro first
      rw [List.foldl_cons, ih, List.findSome?_cons]
      cases first <;> cases s.finalize <;> simp
  rw [firstFailure, fold, Option.none_or, List.findSome?_eq_some_iff]

/-- When the threads have left without an exit request, a session without a failure is done. -/
theorem done_of_left (accepted : ∀ c ∈ cs, Accepted c)
    (reach : Machine.run step (create cs cores) events = some a) (exit : a.exitRequested = false)
    (left : ∀ k < a.concurrency, a.threads k = .left) {j : Nat} {s : Session}
    (found : a.sessions[j]? = some s) (clear : s.failure = none) : s.isDone = true := by
  have consistent := Consistent.of_run reach
  have sound := consistent.sound accepted found
  have positive : 0 < a.concurrency := by
    rw [consistent.concurrency, getConcurrency]
    split <;> omega
  have stopped := (consistent.left _ (left _ (Nat.mod_lt j positive))).resolve_left (by simp [exit])
  exact sound.done_of_idle (hasWork_eq_false.mp (consistent.stopped _ stopped) j s found rfl) clear

/-- The configurations of the sessions are those of the run, in their order. -/
theorem map_configuration (accepted : ∀ c ∈ cs, Accepted c)
    (reach : Machine.run step (create cs cores) events = some a) (started : a.started = true) :
    a.sessions.map (·.configuration) = cs := by
  have consistent := Consistent.of_run reach
  have created := consistent.created started
  rw [consistent.configurations] at created
  refine List.ext_getElem? fun j => ?_
  rw [List.getElem?_map]
  cases found : a.sessions[j]? with
  | none =>
    have beyond := List.getElem?_eq_none_iff.mp found
    rw [List.getElem?_eq_none ((List.drop_eq_nil_iff.mp created).trans beyond)]
    rfl
  | some s =>
    obtain ⟨c, draws, now, events, hc, reach⟩ := consistent.reaches j s found
    have same := (Sound.of_reaches (accepted c (List.mem_of_getElem? hc)) reach).2.1
    rw [hc, Option.map_some, same]

theorem complete_of_mem_own {j t : Nat} {c : Completion}
    (member : (t, .complete c) ∈ ownEvents j events) : .complete j t c ∈ events := by
  obtain ⟨event, occurs, own⟩ := List.mem_flatMap.mp member
  cases event with
  | complete i u d =>
    simp only [ApplicationEvent.own] at own
    split at own
    next same => simp_all
    next => simp at own
  | pollOne k handler =>
    rcases handler with _ | ⟨i, u, h⟩
    · simp [ApplicationEvent.own] at own
    · simp only [ApplicationEvent.own] at own
      split at own <;> simp at own
  | _ => simp [ApplicationEvent.own] at own

/-- The first failing session of a run, by the order of the file, and what made it fail. -/
structure FirstFails (cs : List SessionConfiguration) (events : List ApplicationEvent)
    (a : Application) (j : Nat) (f : ErrorCode) : Prop where
  earlier : ∀ i < j, ∀ u, a.sessions[i]? = some u → u.finalize = none
  fails : ∃ s, a.sessions[j]? = some s ∧ s.finalize = some f
  caused : ∃ c draws now, cs[j]? = some c ∧ (creations events)[j]? = some (draws, now) ∧
    Caused (.create c draws now) (ownEvents j events) f

theorem FirstFails.of_run {cs : List SessionConfiguration} (accepted : ∀ c ∈ cs, Accepted c)
    {cores : Nat} {a : Application}
    (reach : Machine.run Application.step (.create cs cores) events = some a) {f : ErrorCode}
    (failed : a.outcome = some (.failed f)) : ∃ j, FirstFails cs events a j f := by
  obtain ⟨before, s, after, sessions, fails, clear⟩ :=
    firstFailure_eq_some.mp (failed_cases reach failed)
  have found : a.sessions[before.length]? = some s := by simp [sessions]
  refine ⟨before.length, fun i less u hu => clear u ?_, ⟨s, found, fails⟩, ?_⟩
  · rw [sessions, List.getElem?_append_left less] at hu
    exact List.mem_of_getElem? hu
  · obtain ⟨c, draws, now, hc, created, own⟩ := (Projects.of_run reach).reaches _ s found
    have accepted := accepted c (List.mem_of_getElem? hc)
    obtain ⟨sound, _, _⟩ := Sound.of_reaches accepted own
    exact ⟨c, draws, now, hc, created, Caused.of_reaches accepted own (sound.finalize_mem fails)⟩

theorem FirstFails.value_ne_zero {cs : List SessionConfiguration} {a : Application} {j : Nat}
    {f : ErrorCode} (h : FirstFails cs events a j f)
    (genuine : ∀ event ∈ events, event.IsGenuine) : f.value ≠ 0 := by
  obtain ⟨c, draws, now, _, _, before, t, completion, after, u, own, _, causes⟩ := h.caused
  have member : (t, .complete completion) ∈ ownEvents j events := by simp [own]
  exact causes.value_ne_zero (genuine _ (complete_of_mem_own member))

end Application

open Application

namespace Environment

variable {env : Environment} {creation : Exception} {argv : List (List Char)}
  {events : List ApplicationEvent} {n : Int}

/-- The ways in which `main` comes to return. -/
theorem exitStatus_cases (status : env.exitStatus creation argv events = some n) :
    (∃ what, env.parse argv = .error what ∧ n = 1) ∨
      ∃ configuration a, env.parse argv = .ok configuration ∧
        Machine.run Application.step (.create configuration.sessionConfigurations
          (toCpuCoreList configuration.cpus).length) events = some a ∧
        (a.outcome = some .returned ∧ n = 0 ∨ a.outcome = some .threw ∧ n = main (some creation) ∨
          ∃ j f, a.outcome = some (.failed f) ∧
            FirstFails configuration.sessionConfigurations events a j f ∧ n = f.value) := by
  unfold exitStatus at status
  split at status
  next what failed => exact .inl ⟨what, failed, (Option.some.inj status).symm⟩
  next configuration parsed =>
    obtain ⟨outcome, ended, status⟩ := Option.bind_eq_some_iff.mp status
    obtain ⟨a, reach, ended⟩ := Option.bind_eq_some_iff.mp ended
    obtain ⟨thrown, throws, rfl⟩ := Option.map_eq_some_iff.mp status
    refine .inr ⟨configuration, a, parsed, reach, ?_⟩
    cases outcome with
    | returned =>
      cases Option.some.inj throws
      exact .inl ⟨ended, rfl⟩
    | threw =>
      cases Option.some.inj throws
      exact .inr (.inl ⟨ended, rfl⟩)
    | failed f =>
      cases Option.some.inj throws
      obtain ⟨j, first⟩ := FirstFails.of_run (parse_accepted parsed) reach ended
      exact .inr (.inr ⟨j, f, ended, first, rfl⟩)
    | killed => simp [Outcome.thrown] at throws

end Environment

/-- A program that exits with zero has made a session of each configuration, none of which failed.
If no signal came before the first one was there to watch for it, each has done its transfer. -/
theorem exit_success {env : Environment} {creation : Exception}
    (thrown : main (some creation) ≠ 0) {argv : List (List Char)} {events : List ApplicationEvent}
    (genuine : ∀ event ∈ events, event.IsGenuine)
    (success : env.exitStatus creation argv events = some 0) :
    ∃ configuration a, env.parse argv = .ok configuration ∧
      Machine.run Application.step (.create configuration.sessionConfigurations
        (toCpuCoreList configuration.cpus).length) events = some a ∧
      a.sessions.map (·.configuration) = configuration.sessionConfigurations ∧
      (∀ s ∈ a.sessions, s.finalize = none) ∧
      (Machine.Along Application.step Watched (.create configuration.sessionConfigurations
        (toCpuCoreList configuration.cpus).length) events → ∀ s ∈ a.sessions, Transferred s) := by
  rcases Environment.exitStatus_cases success with
    ⟨_, _, one⟩ | ⟨configuration, a, parsed, reach, h⟩
  · cases one
  have accepted := Environment.parse_accepted parsed
  rcases h with ⟨returned, _⟩ | ⟨_, zero⟩ | ⟨j, f, _, first, zero⟩
  · obtain ⟨started, left, clear⟩ := returned_cases reach returned
    refine ⟨configuration, a, parsed, reach, map_configuration accepted reach started, clear,
      fun watched s member => ?_⟩
    obtain ⟨j, found⟩ := List.mem_iff_getElem?.mp member
    have sound := (Consistent.of_run reach).sound accepted found
    have exit : a.exitRequested = false := by
      by_contra exit
      obtain ⟨i, u, hu, failed⟩ := (run_cases accepted reach).1 watched (by simpa using exit)
      exact failed (clear u (List.mem_of_getElem? hu))
    exact .of_done sound (done_of_left accepted reach exit left found (clear s member))
  · exact absurd zero.symm thrown
  · exact absurd zero.symm (first.value_ne_zero genuine)

/-- A line for a datagram session with some options of its own. -/
def datagramLine (others : List (List Char)) : List Char :=
  lineOf (["--connect=a:1".toList, "--protocol=udp".toList] ++ others)

def sendLine : List Char := datagramLine ["--size=1B".toList, "--mode=tx".toList]

theorem exit_success_sendByte : ∃ configuration a,
    (piped sendLine).parse ["--configuration-file=-".toList] = .ok configuration ∧
    Machine.run Application.step (.create configuration.sessionConfigurations
      (toCpuCoreList configuration.cpus).length) sendByte = some a ∧
    a.sessions.map (·.configuration) = configuration.sessionConfigurations ∧
    ∀ s ∈ a.sessions, Transferred s := by
  have parsed : (piped sendLine).parse ["--configuration-file=-".toList] = .ok ⟨⟨[]⟩,
      [{ defaultConfiguration "a:1" ⟨1, .iec, one_bounded⟩ with
        protocol := .udp, direction := .tx }]⟩ :=
    piped_parse (by decide) (by simp [isSpace]) (by decide +kernel)
  have thrown : main (some (.other "")) ≠ 0 := by decide
  have genuine : ∀ event ∈ sendByte, event.IsGenuine := by
    simp [sendByte, turn, ApplicationEvent.IsGenuine, Completion.failure]
  have success : (piped sendLine).exitStatus (.other "") ["--configuration-file=-".toList]
      sendByte = some 0 := by
    rw [Environment.exitStatus, parsed]
    decide +kernel
  obtain ⟨configuration, a, same, reach, configurations, _, all⟩ :=
    exit_success thrown genuine success
  cases Except.ok.inj (parsed.symm.trans same)
  refine ⟨_, a, same, reach, configurations, all ?_⟩
  simp [Machine.Along, sendByte, turn, Application.Watched]

/-- A program that exits with another status than zero has not parsed its configuration, has failed
to create a session, or exits with the code of the first session that failed, in the order of the
file; and a completion of that session justified the code. -/
theorem exit_failure {env : Environment} {creation : Exception} {argv : List (List Char)}
    {events : List ApplicationEvent} {n : Int}
    (status : env.exitStatus creation argv events = some n) (nonzero : n ≠ 0) :
    (∃ what, env.parse argv = .error what ∧ n = 1) ∨
      ∃ configuration a, env.parse argv = .ok configuration ∧
        Machine.run Application.step (.create configuration.sessionConfigurations
          (toCpuCoreList configuration.cpus).length) events = some a ∧
        (a.outcome = some .threw ∧ n = main (some creation) ∨
          ∃ j f, FirstFails configuration.sessionConfigurations events a j f ∧ n = f.value) := by
  rcases Environment.exitStatus_cases status with failed | ⟨configuration, a, parsed, reach, h⟩
  · exact .inl failed
  refine .inr ⟨configuration, a, parsed, reach, ?_⟩
  rcases h with ⟨_, zero⟩ | threw | ⟨j, f, _, first, value⟩
  · exact absurd zero nonzero
  · exact .inl threw
  · exact .inr ⟨j, f, first, value⟩

/-- A session that receives two bytes and verifies them. -/
def receiveLine : List Char := datagramLine ["--size=2B".toList, "--verify=all".toList]

theorem exit_failure_receiveWrong : ∃ configuration a,
    (piped receiveLine).parse ["--configuration-file=-".toList] = .ok configuration ∧
    Machine.run Application.step (.create configuration.sessionConfigurations
      (toCpuCoreList configuration.cpus).length) receiveWrong = some a ∧
    ∃ j f, FirstFails configuration.sessionConfigurations receiveWrong a j f ∧ 3 = f.value := by
  have parsed : (piped receiveLine).parse ["--configuration-file=-".toList] = .ok ⟨⟨[]⟩,
      [{ defaultConfiguration "a:1" ⟨2, .iec, by decide⟩ with
        protocol := .udp, verify := .all }]⟩ :=
    piped_parse (by decide) (by simp [isSpace]) (by decide +kernel)
  have status : (piped receiveLine).exitStatus (.other "") ["--configuration-file=-".toList]
      receiveWrong = some 3 := by
    rw [Environment.exitStatus, parsed]
    decide +kernel
  rcases exit_failure status (by decide) with ⟨what, failed, _⟩ | ⟨configuration, a, same, reach, h⟩
  · cases parsed.symm.trans failed
  · exact ⟨configuration, a, same, reach, h.resolve_left fun threw => absurd threw.2 (by decide)⟩

end NetTester

import Mathlib.Algebra.Order.BigOperators.Group.Finset
import NetTester.ExitStatus

namespace NetTester

/-- The turns that a thread has left in its loop once the exit is requested. -/
def ThreadState.rounds : ThreadState → Nat
  | .polling => 2
  | .checking => 1
  | .left => 0

/-- The turns that a thread has left when its service has no work, and is or is not stopped yet. -/
def ThreadState.turns (stopped : Bool) : ThreadState → Nat
  | .polling => 2
  | .checking => if stopped then 1 else 3
  | .left => 0

/-- The event is one of the loop of a thread. -/
def ApplicationEvent.turnsOf (k : Nat) : ApplicationEvent → Bool
  | .check i => i = k
  | .pollOne i _ => i = k
  | _ => false

/-- The event is a call of `poll_one` by a thread. -/
def ApplicationEvent.pollsOf (k : Nat) : ApplicationEvent → Bool
  | .pollOne i _ => i = k
  | _ => false

/-- An event that the main thread and the others bring about by themselves. -/
def ApplicationEvent.isOfThreads : ApplicationEvent → Bool
  | .check _ => true
  | .pollOne _ none => true
  | .joinThreads => true
  | _ => false

namespace Application

variable {a a' : Application} {event : ApplicationEvent}

theorem exit_kept (hs : a.step event = some a') (exit : a.exitRequested = true) :
    a'.exitRequested = true := by
  obtain ⟨_, move⟩ := step_cases hs
  clear hs
  cases move with
  | signal m => exact (onSignal_frame m a).exit exit
  | createSession draws now c rest next => exact exit
  | createThrows event creation => exact exit
  | startThreads created => exact exit
  | complete i t c s u found hs => simp [setSession, exit]
  | check k started bound checking => exact exit
  | poll k polling => exact exit
  | run k i t handler s u polling own found hs => simp [polled, setSession, exit]
  | joinThreads started left => exact exit

/-- Each turn of a thread uses up a round of it, and nothing else does. -/
theorem rounds_step (hs : a.step event = some a') (exit : a.exitRequested = true) (k : Nat) :
    (if event.turnsOf k then 1 else 0) + (a'.threads k).rounds = (a.threads k).rounds ∧
      (event.pollsOf k = true → a.threads k = .polling) := by
  obtain ⟨_, move⟩ := step_cases hs
  clear hs
  have turned : ∀ i before after (threads : Nat → ThreadState), a.threads i = before →
      threads = Function.update a.threads i after → 1 + after.rounds = before.rounds →
      (if decide (i = k) = true then 1 else 0) + (threads k).rounds = (a.threads k).rounds := by
    rintro i _ after _ rfl rfl less
    rw [Function.update_apply]
    by_cases same : k = i
    · subst same
      simpa using less
    · have other : i ≠ k := fun eq => same eq.symm
      simp [same, other]
  cases move with
  | signal m =>
    refine ⟨?_, by simp [ApplicationEvent.pollsOf]⟩
    rw [(onSignal_frame m a).threads]
    simp [ApplicationEvent.turnsOf]
  | createSession draws now c rest next =>
    exact ⟨by simp [ApplicationEvent.turnsOf], by simp [ApplicationEvent.pollsOf]⟩
  | createThrows event creation =>
    rcases creation with rfl | ⟨draws, now, rfl⟩ <;>
      exact ⟨by simp [ApplicationEvent.turnsOf], by simp [ApplicationEvent.pollsOf]⟩
  | startThreads created =>
    exact ⟨by simp [ApplicationEvent.turnsOf], by simp [ApplicationEvent.pollsOf]⟩
  | complete i t c s u found hs =>
    exact ⟨by simp [ApplicationEvent.turnsOf, setSession], by simp [ApplicationEvent.pollsOf]⟩
  | check i started bound checking =>
    refine ⟨turned i .checking .left _ checking ?_ rfl, by simp [ApplicationEvent.pollsOf]⟩
    simp [check, exit]
  | poll i polling =>
    refine ⟨turned i .polling .checking _ polling rfl rfl, fun own => ?_⟩
    obtain rfl : i = k := of_decide_eq_true own
    exact polling
  | run i j t handler s u polling own found hs =>
    refine ⟨turned i .polling .checking _ polling rfl rfl, fun own => ?_⟩
    obtain rfl : i = k := of_decide_eq_true own
    exact polling
  | joinThreads started left =>
    exact ⟨by simp [ApplicationEvent.turnsOf, joinThreads], by simp [ApplicationEvent.pollsOf]⟩

theorem rounds_run {events : List ApplicationEvent} (exit : a.exitRequested = true)
    (reach : Machine.run step a events = some a') (k : Nat) :
    events.countP (·.turnsOf k) + (a'.threads k).rounds = (a.threads k).rounds ∧
      events.countP (·.pollsOf k) ≤ if a.threads k = .polling then 1 else 0 := by
  induction events generalizing a with
  | nil =>
    cases Option.some.inj reach
    simp
  | cons event events ih =>
    obtain ⟨b, hs, reach⟩ := Machine.run_cons_iff.mp reach
    obtain ⟨turns, polls⟩ := ih (exit_kept hs exit) reach
    obtain ⟨turn, poll⟩ := rounds_step hs exit k
    rw [List.countP_cons, List.countP_cons]
    refine ⟨by omega, ?_⟩
    by_cases first : event.pollsOf k = true
    · -- The poll in progress is the last one: the thread finds the request before another.
      have own : event.turnsOf k = true := by
        cases event <;> simp_all [ApplicationEvent.pollsOf, ApplicationEvent.turnsOf]
      have polling := poll first
      have away : b.threads k ≠ .polling := by
        intro again
        rw [own, polling, again] at turn
        simp [ThreadState.rounds] at turn
      rw [if_neg away] at polls
      rw [if_pos polling, if_pos first]
      omega
    · have same : b.threads k = .polling → a.threads k = .polling := by
        intro polling
        rw [polling] at turn
        cases before : a.threads k with
        | polling => rfl
        | checking => simp [before, ThreadState.rounds] at turn
        | left => simp [before, ThreadState.rounds] at turn
      rw [if_neg first]
      refine polls.trans ?_
      split
      next polling => rw [if_pos (same polling)]
      next => exact Nat.zero_le _

/-- The rounds that the threads have left together, with the joins of the main thread. -/
def roundsLeft (a : Application) : Nat :=
  if a.outcome = none then (∑ k ∈ Finset.range a.concurrency, (a.threads k).rounds) + 1 else 0

theorem roundsLeft_le (a : Application) : a.roundsLeft ≤ 2 * a.concurrency + 1 := by
  have each : ∀ k ∈ Finset.range a.concurrency, (a.threads k).rounds ≤ 2 := by
    intro k _
    cases a.threads k <;> simp [ThreadState.rounds]
  have sum := Finset.sum_le_card_nsmul _ _ 2 each
  simp only [Finset.card_range, Nat.nsmul_eq_mul] at sum
  unfold roundsLeft
  split <;> omega

/-- A started application that is to exit can take a step of its threads that brings it nearer to
its end. -/
theorem exit_progress (running : a.outcome = none) (started : a.started = true)
    (exit : a.exitRequested = true) : ∃ event a', event.isOfThreads = true ∧
      a.step event = some a' ∧ a'.started = true ∧ a'.exitRequested = true ∧
      a'.roundsLeft < a.roundsLeft := by
  by_cases all : ∀ k < a.concurrency, a.threads k = .left
  · refine ⟨.joinThreads, a.joinThreads, rfl, ?_, started, exit, ?_⟩
    · simpa [step, running, dispatch, started] using all
    · simp [roundsLeft, joinThreads, running]
  · simp only [not_forall] at all
    obtain ⟨k, bound, away⟩ := all
    have nearer : ∀ event a', a.step event = some a' → event.turnsOf k = true →
        a'.outcome = none → a'.concurrency = a.concurrency → a'.roundsLeft < a.roundsLeft := by
      intro event a' hs own running' concurrency
      have round := fun i => (rounds_step hs exit i).1
      simp only [roundsLeft, running, running', if_true, concurrency]
      refine Nat.add_lt_add_right (Finset.sum_lt_sum (fun i _ => ?_) ?_) 1
      · have := round i
        omega
      · refine ⟨k, Finset.mem_range.mpr bound, ?_⟩
        have := round k
        rw [own] at this
        simp only [if_true] at this
        omega
    cases state : a.threads k with
    | left => exact absurd state away
    | checking =>
      have hs : a.step (.check k) = some (a.check k) := by
        simp [step, running, dispatch, started, bound, state]
      exact ⟨.check k, a.check k, rfl, hs, started, exit,
        nearer _ _ hs (by simp [ApplicationEvent.turnsOf]) running rfl⟩
    | polling =>
      have hs : a.step (.pollOne k none) = some (a.polled k) := by
        simp [step, running, dispatch, state]
      exact ⟨.pollOne k none, a.polled k, rfl, hs, started, exit,
        nearer _ _ hs (by simp [ApplicationEvent.turnsOf]) running rfl⟩

end Application

open Application

/-- Once the exit is requested every thread ends the poll it is in, if any, and runs no handler
after it: it takes two turns at most. The threads and the joins alone bring a started application
to its end, within two steps for each thread and one more. -/
theorem exit_prompt {a : Application} (exit : a.exitRequested = true) :
    (∀ events a', Machine.run Application.step a events = some a' → ∀ k,
      events.countP (·.turnsOf k) + (a'.threads k).rounds = (a.threads k).rounds ∧
        events.countP (·.pollsOf k) ≤ if a.threads k = .polling then 1 else 0) ∧
    (a.started = true → ∃ events a', (∀ event ∈ events, event.isOfThreads = true) ∧
      Machine.run Application.step a events = some a' ∧ a'.outcome ≠ none ∧
      events.length ≤ 2 * a.concurrency + 1) := by
  refine ⟨fun events a' reach => rounds_run exit reach, fun started => ?_⟩
  have next : ∀ b : Application, b.started = true ∧ b.exitRequested = true → ¬b.outcome ≠ none →
      ∃ event b', event.isOfThreads = true ∧ b.step event = some b' ∧
        (b'.started = true ∧ b'.exitRequested = true) ∧ b'.roundsLeft < b.roundsLeft := by
    rintro b ⟨started, exit⟩ running
    obtain ⟨event, b', own, hs, started', exit', less⟩ :=
      exit_progress (of_not_not running) started exit
    exact ⟨event, b', own, hs, ⟨started', exit'⟩, less⟩
  obtain ⟨events, a', along, reach, ended, short⟩ :=
    Machine.exists_run_of_measure next ⟨started, exit⟩
  exact ⟨events, a', Machine.forall_of_along along reach, reach, ended,
    short.trans a.roundsLeft_le⟩

/-- The application of `sendByte` when a signal has interrupted it between two polls. -/
def interrupted : List ApplicationEvent :=
  [.createSession (fun _ => 0) 0, .startThreads, .signal .sigint,
    .complete 0 0 (.signalled .sigint)] ++ turn (.onSignal 0)

theorem exit_prompt_interrupted : ∃ a, Machine.run Application.step (.create
    [{ defaultConfiguration "127.0.0.1:1234" ⟨1, .iec, by decide⟩ with
      protocol := .udp, direction := .tx }] 0) interrupted = some a ∧
    ∃ events a', (∀ event ∈ events, event.isOfThreads = true) ∧
      Machine.run Application.step a events = some a' ∧ a'.outcome ≠ none ∧
      events.length ≤ 2 * a.concurrency + 1 := by
  refine Machine.exists_run (fun a => (a.started, a.exitRequested)) (b := (true, true))
    (by decide +kernel) ?_
  intro a _ observed
  simp only [Prod.mk.injEq] at observed
  exact (exit_prompt observed.2).2 observed.1

end NetTester

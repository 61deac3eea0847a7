import NetTester.Finished

namespace NetTester

/-- The events that start the timer of the test: the lambdas of `initialize`. -/
def Event.startsTimer : Event → Bool
  | .invoke (.posted _) => true
  | _ => false

/-- The timer of the test is started once, and until the end of the session or its failure it is yet
to be started or runs for the estimated duration, and is not cancelled. -/
structure Timed (s : Session) : Prop where
  once : s.posts.length + s.timeoutTimer.length ≤ 1
  watching : s.isDone = false → s.failure = none → s.posts = [] →
    ∃ duration r, Session.estimateTestDuration s.configuration = some duration ∧
      s.timeoutTimer = [⟨duration, r⟩] ∧ (r = none ∨ r = some none)

namespace Timed

variable {s s' : Session} {t : Nat} {e : Event}

theorem create (c : SessionConfiguration) (draws : Nat → Nat) (now : Nat) :
    Timed (.create c draws now) where
  once := by
    simp only [Session.create]
    split <;> simp
  watching := by
    intro _ _ none
    simp only [Session.create] at none
    split at none <;> simp at none

/-- An event that leaves the timer and the posts alone. -/
theorem congr (h : Timed s) (timer : s'.timeoutTimer = s.timeoutTimer) (posts : s'.posts = s.posts)
    (done : s'.isDone = s.isDone) (configuration : s'.configuration = s.configuration)
    (clear : s'.failure = none → s.failure = none) : Timed s' := by
  refine ⟨by rw [timer, posts]; exact h.once, fun undone clean none => ?_⟩
  rw [timer, configuration]
  exact h.watching (done ▸ undone) (clear clean) (posts ▸ none)

theorem step (h : Timed s) (sound : Sound s) (hs : s.step (t, e) = some s') : Timed s' := by
  have frame := Session.step_frame sound.tidy hs
  have configuration := frame.configuration
  have once := h.once
  have clear : s'.failure = none → s.failure = none := fun clear => by
    by_contra failed
    exact frame.reports.failure failed clear
  cases Session.step_endMove sound.tidy hs with
  | chain step posts =>
    cases step with
    | still view done =>
      exact h.congr (congrArg EndView.timeoutTimer view) posts done configuration clear
    | finish view before done =>
      refine ⟨?_, fun undone => absurd done (by simp [undone])⟩
      rw [show s'.timeoutTimer = _ from congrArg EndView.timeoutTimer view, posts]
      simpa [EndView.finish, Session.endView, Operation.settle] using once
  | arm duration i p posted view done estimate event posts =>
    -- The lambda was the only one, and no timer was running before it.
    have some := (List.getElem?_eq_some_iff.mp posted).1
    have none : s.timeoutTimer = [] := List.eq_nil_of_length_eq_zero (by omega)
    have timer : s'.timeoutTimer = [⟨duration, .none⟩] := by
      rw [show s'.timeoutTimer = _ from congrArg EndView.timeoutTimer view, none]
      rfl
    refine ⟨?_, fun _ _ _ => ⟨duration, .none, configuration ▸ estimate, timer, .inl rfl⟩⟩
    rw [timer, posts, List.length_eraseIdx_of_lt some, List.length_singleton]
    omega
  | timedOut i after event completes view done posts =>
    obtain ⟨_, x, pending, _, after⟩ := Operation.complete_single (by omega) completes
    have timer : s'.timeoutTimer = [⟨x, some none⟩] :=
      (congrArg EndView.timeoutTimer view).trans after
    refine ⟨?_, fun undone clean none => ?_⟩
    · rw [timer, posts]
      rw [pending] at once
      exact once
    · obtain ⟨duration, r, estimate, before, _⟩ :=
        h.watching (done ▸ undone) (clear clean) (posts ▸ none)
      obtain ⟨rfl, _⟩ : x = duration ∧ _ := by simpa [pending] using before
      exact ⟨x, _, configuration ▸ estimate, timer, .inr rfl⟩
  | timeout i x failure after ready view done report event posts =>
    obtain ⟨_, queued, gone⟩ := Operation.dequeue_single (by omega) ready
    have timer : s'.timeoutTimer = [] := (congrArg EndView.timeoutTimer view).trans gone
    refine ⟨?_, fun undone clean none => ?_⟩
    · rw [timer, posts, List.length_nil]
      omega
    · obtain ⟨duration, r, _, before, live⟩ :=
        h.watching (done ▸ undone) (clear clean) (posts ▸ none)
      cases failure with
      | none =>
        have failed : s'.failure = some (.tester .testTimeout) := congrArg Report.failure report
        simp [clean] at failed
      | some f =>
        have same : some (some f) = r := by simp_all
        subst same
        simp at live
  | signalled signal event view done posts =>
    exact h.congr (congrArg EndView.timeoutTimer view) posts done configuration clear
  | signal i r after ready view done report event posts =>
    exact h.congr (congrArg EndView.timeoutTimer view) posts done configuration clear

theorem of_reaches {c : SessionConfiguration} (accepted : Accepted c) {draws : Nat → Nat}
    {now : Nat} {events : List (Nat × Event)} (reach : Session.Reaches c draws now events s) :
    Timed s := by
  refine Machine.run_induction (fun _ s => Timed s) (create c draws now) ?_ reach
  rintro events s ⟨t, e⟩ s' reach h hs
  exact h.step (Sound.of_reaches accepted reach).1 hs

end Timed

/-- The lambda that starts the timer is taken off the posts by the event that runs it. -/
theorem starts_of_reaches {c : SessionConfiguration} (accepted : Accepted c) {draws : Nat → Nat}
    {now : Nat} {events : List (Nat × Event)} {s : Session}
    (reach : Session.Reaches c draws now events s) :
    events.countP (fun event => event.2.startsTimer) + s.posts.length = 1 := by
  refine Machine.run_induction
    (fun events s => events.countP (fun event => event.2.startsTimer) + s.posts.length = 1)
    ?_ ?_ reach
  · simp only [Session.create]
    split <;> rfl
  · rintro events s ⟨t, e⟩ s' reach h hs
    rw [List.countP_append, List.countP_singleton]
    have still : e.startsTimer = false → s'.posts = s.posts →
        events.countP (fun event => event.2.startsTimer) + (if e.startsTimer = true then 1 else 0) +
          s'.posts.length = 1 := by
      intro silent posts
      rw [silent, posts]
      simpa using h
    cases Session.step_endMove (Sound.of_reaches accepted reach).1.tidy hs with
    | chain step posts other =>
      refine still ?_ posts
      unfold Event.startsTimer
      split
      next i => exact absurd rfl (other i)
      next => rfl
    | arm duration i p posted view done estimate event posts =>
      have some := (List.getElem?_eq_some_iff.mp posted).1
      have starts : e.startsTimer = true := by rw [event]; rfl
      rw [posts, List.length_eraseIdx_of_lt some, if_pos starts]
      omega
    | timedOut i after event completes view done posts => exact still (by rw [event]; rfl) posts
    | timeout i x failure after ready view done report event posts =>
      exact still (by rw [event]; rfl) posts
    | signalled signal event view done posts => exact still (by rw [event]; rfl) posts
    | signal i r after ready view done report event posts =>
      exact still (by rw [event]; rfl) posts

/-- The events of the timer of the test: its start, its end and its handler. -/
def Event.isOfTimer : Event → Bool
  | .invoke (.posted _) => true
  | .complete (.timedOut _) => true
  | .invoke (.onTimeout _) => true
  | _ => false

section

variable {s : Session}

/-- A timer that runs ends the test. -/
theorem timer_fires (alive : s.assertionFailed = false) {x : Int} {r : Option (Option ErrorCode)}
    (timer : s.timeoutTimer = [⟨x, r⟩]) (live : r = none ∨ r = some none) :
    ∃ later s', (∀ event ∈ later, event.2.isOfTimer = true) ∧ later.length ≤ 2 ∧
      Machine.run Session.step s later = some s' ∧
      s'.finalize = some (.tester .testTimeout) ∧ s'.exitRequested = true := by
  let fired : Session := { s with timeoutTimer := [] }.abort (.tester .testTimeout)
  have handle : ∀ u : Session, u = { s with timeoutTimer := [⟨x, some none⟩] } →
      u.step (s.now, .invoke (.onTimeout 0)) = some fired := by
    rintro u rfl
    simp [Session.step, Session.dispatch, Session.invoke, alive, Operation.dequeue,
      Session.handleTimeout, fired]
  have ends : fired.finalize = some (.tester .testTimeout) ∧ fired.exitRequested = true := by
    simp [fired, Session.abort, Session.finalize]
  rcases live with rfl | rfl
  · let expired : Session := { s with timeoutTimer := [⟨x, some none⟩] }
    have expire : s.step (s.now, .complete (.timedOut 0)) = some expired := by
      simp [Session.step, Session.dispatch, Session.complete, alive, timer, Operation.complete,
        expired]
    exact ⟨[(s.now, .complete (.timedOut 0)), (s.now, .invoke (.onTimeout 0))], fired,
      by simp [Event.isOfTimer], by simp, Machine.run_cons_iff.mpr ⟨expired, expire,
        Machine.run_cons_iff.mpr ⟨fired, handle _ rfl, rfl⟩⟩, ends⟩
  · exact ⟨[(s.now, .invoke (.onTimeout 0))], fired, by simp [Event.isOfTimer], by simp,
      Machine.run_cons_iff.mpr ⟨fired, handle s (by rw [← timer]), rfl⟩, ends⟩

/-- The lambda that is to start the timer can be run at once, and starts it. -/
theorem posted_starts (sound : Sound s) (timed : Timed s) (alive : s.assertionFailed = false)
    (posted : s.posts ≠ []) {duration : Int}
    (estimate : Session.estimateTestDuration s.configuration = some duration) :
    ∃ u, s.step (s.now, .invoke (.posted 0)) = some u ∧ u.assertionFailed = false ∧
      u.timeoutTimer = [⟨duration, none⟩] := by
  have once := timed.once
  obtain ⟨p, others, posts⟩ := List.exists_cons_of_ne_nil posted
  have alone : s.timeoutTimer = [] := by
    rw [posts, List.length_cons] at once
    exact List.eq_nil_of_length_eq_zero (by omega)
  let armed : Session :=
    { s with posts := others, timeoutTimer := [Operation.initiate duration] }
  have timer : s.startTimer = some { s with timeoutTimer := [Operation.initiate duration] } := by
    simp [Session.startTimer, estimate, alone]
  cases p with
  | startTimer =>
    refine ⟨armed, ?_, alive, rfl⟩
    simp [Session.step, Session.dispatch, Session.invoke, alive, posts, Session.runPosted,
      Session.startTimer, estimate, alone, armed]
  | startTimerAndTransfer =>
    have unstarted := sound.tidy.posts (posts ▸ List.mem_cons_self)
    obtain ⟨view, _⟩ := Session.startTransfer_end (u := armed) sound.tidy unstarted rfl rfl
    obtain ⟨_, sends, _, incomplete⟩ := sound.tidy.unstarted unstarted
    refine ⟨armed.startTransfer, ?_, ?_, congrArg EndView.timeoutTimer view⟩
    · simp [Session.step, Session.dispatch, Session.invoke, alive, posts, Session.runPosted,
        Session.startTimer, estimate, alone, armed]
    · apply (congrArg SendView.assertionFailed
        (Session.startTransfer_sendView armed sends incomplete)).trans
      split <;> exact alive

end

/-- No test hangs: the timer of a session is started by one event of its run at most. Until the
session has finished or failed the timer is yet to be started, or runs for the estimated duration,
and it alone can end the test at any moment. -/
theorem timer_watches {c : SessionConfiguration} (accepted : Accepted c) {draws : Nat → Nat}
    {now : Nat} {events : List (Nat × Event)} {s : Session}
    (reach : Session.Reaches c draws now events s)
    (estimate : (Session.estimateTestDuration c).isSome = true) :
    events.countP (fun event => event.2.startsTimer) + s.posts.length = 1 ∧
      s.posts.length + s.timeoutTimer.length ≤ 1 ∧
      (Call.onFinish ∉ s.calls → s.finalize = none → s.assertionFailed = false →
        (s.posts = [] → ∃ duration r, Session.estimateTestDuration c = some duration ∧
          s.timeoutTimer = [⟨duration, r⟩] ∧ (r = none ∨ r = some none)) ∧
        ∃ later s', (∀ event ∈ later, event.2.isOfTimer = true) ∧ later.length ≤ 3 ∧
          Machine.run Session.step s later = some s' ∧
          s'.finalize = some (.tester .testTimeout) ∧ s'.exitRequested = true) := by
  obtain ⟨sound, configuration, _⟩ := Sound.of_reaches accepted reach
  have timed := Timed.of_reaches accepted reach
  refine ⟨starts_of_reaches accepted reach, timed.once, fun unfinished clear alive => ?_⟩
  have undone : s.isDone = false := by
    by_contra done
    exact unfinished (sound.onFinish_iff.mpr (by simpa using done))
  have watching := timed.watching undone clear
  rw [configuration] at watching
  refine ⟨watching, ?_⟩
  by_cases none : s.posts = []
  · obtain ⟨duration, r, _, timer, live⟩ := watching none
    obtain ⟨later, s', own, short, reach, ends⟩ := timer_fires alive timer live
    exact ⟨later, s', own, by omega, reach, ends⟩
  · obtain ⟨duration, estimate⟩ := Option.isSome_iff_exists.mp estimate
    rw [← configuration] at estimate
    obtain ⟨u, hs, alive, timer⟩ := posted_starts sound timed alive none estimate
    obtain ⟨later, s', own, short, reach, ends⟩ := timer_fires alive timer (.inl rfl)
    refine ⟨(s.now, .invoke (.posted 0)) :: later, s', ?_, ?_,
      Machine.run_cons_iff.mpr ⟨u, hs, reach⟩, ends⟩
    · exact List.forall_mem_cons.mpr ⟨rfl, own⟩
    · simp only [List.length_cons]
      omega

/-- A datagram session that has just started its transfer. -/
theorem timer_watches_started : ∃ s, Session.Reaches
    { defaultConfiguration "127.0.0.1:1234" ⟨1, .iec, one_bounded⟩ with
      protocol := .udp, direction := .tx }
    (fun _ => 0) 0 [(0, .invoke (.posted 0))] s ∧
    ∃ later s', (∀ event ∈ later, event.2.isOfTimer = true) ∧ later.length ≤ 3 ∧
      Machine.run Session.step s later = some s' ∧
      s'.finalize = some (.tester .testTimeout) ∧ s'.exitRequested = true := by
  refine Machine.exists_run (fun s => (s.calls.count .onFinish, s.finalize, s.assertionFailed))
    (b := (0, none, false)) (by decide +kernel) ?_
  intro s reach observed
  simp only [Prod.mk.injEq, List.count_eq_zero] at observed
  obtain ⟨unfinished, clear, alive⟩ := observed
  exact ((timer_watches (accepted_iff.mpr (by decide)) reach (by decide)).2.2
    unfinished clear alive).2

end NetTester

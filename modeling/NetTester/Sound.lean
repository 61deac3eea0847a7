import NetTester.OpenMoves
import NetTester.SendChain

namespace NetTester

/-- What is left of the operations that precede the transfer: a stream session connects and starts
its timer apart, a datagram session does both in one posted handler. -/
inductive Opening (s : Session) : Prop
  | connecting (tcp : s.configuration.protocol = .tcp) (date : s.statistics.startDate = none)
      (r : Option (Option ErrorCode)) (opens : s.opens = [⟨(), r⟩])
      (posts : s.posts = [] ∨ s.posts = [.startTimer])
  | connected (tcp : s.configuration.protocol = .tcp) (date : s.statistics.startDate ≠ none)
      (opens : s.opens = []) (posts : s.posts = [] ∨ s.posts = [.startTimer])
  | posted (udp : s.configuration.protocol = .udp) (date : s.statistics.startDate = none)
      (opens : s.opens = []) (posts : s.posts = [.startTimerAndTransfer])
  | started (udp : s.configuration.protocol = .udp) (date : s.statistics.startDate ≠ none)
      (opens : s.opens = []) (posts : s.posts = [])

/-- The end of a session agrees with its flags, its failure with its calls of `abort`, and until
then it waits for a signal. -/
structure Ending (s : Session) : Prop where
  finishes : s.calls.count .onFinish = if s.isDone then 1 else 0
  isOpen : s.isOpen = !s.isDone
  failure : s.failure = s.aborts.head?
  exit : s.exitRequested = s.failure.isSome
  uncancelled : s.isDone = false → ∀ o ∈ s.signals, ∀ f, o.result ≠ some (.error f)
  watching : s.isDone = false → s.failure = none → s.signals ≠ []

/-- The invariant of a session. -/
structure Sound (s : Session) : Prop where
  size : s.configuration.size.value ≠ 0
  receive : ReceiveChain s.configuration s.now (s.failure ≠ none) s.receiveView
  send : SendChain s.configuration s.draws s.now (s.failure ≠ none) s.sendView
  opening : Opening s
  ending : Ending s

/-- A receive chain has at most one operation outstanding. -/
theorem ReceiveChain.single {c : SessionConfiguration} {now : Nat} {failed : Prop} {v : ReceiveView}
    (h : ReceiveChain c now failed v) :
    v.receives.length ≤ 1 ∧ v.throttle.waits.length ≤ 1 ∧
      (v.isComplete = true → v.receives = [] ∧ v.throttle.waits = []) := by
  cases h <;> simp_all

theorem SendChain.single {c : SessionConfiguration} {draws : Nat → Nat} {now : Nat} {failed : Prop}
    {v : SendView} (h : SendChain c draws now failed v) :
    v.sends.length ≤ 1 ∧ v.throttle.waits.length ≤ 1 ∧
      (v.isComplete = true → v.sends = [] ∧ v.throttle.waits = []) := by
  cases h <;> simp_all

theorem Opening.single {s : Session} (h : Opening s) :
    s.opens.length ≤ 1 ∧ (s.opens ≠ [] → s.statistics.startDate = none) ∧
      (Posted.startTimerAndTransfer ∈ s.posts → s.statistics.startDate = none) := by
  cases h with
  | connecting tcp date r opens posts => simp [opens, date]
  | connected tcp date opens posts => rcases posts with posts | posts <;> simp [opens, posts]
  | posted udp date opens posts => simp [opens, date]
  | started udp date opens posts => simp [opens, posts]

theorem Sound.tidy {s : Session} (h : Sound s) : Tidy s where
  receives := h.receive.single.1
  sends := h.send.single.1
  receiveWaits := h.receive.single.2.1
  sendWaits := h.send.single.2.1
  receiveComplete := fun complete => (h.receive.single.2.2 complete).1
  sendComplete := fun complete => (h.send.single.2.2 complete).1
  unstarted := by
    intro date
    obtain ⟨_, receives, _, incomplete, _⟩ := h.receive.idle date
    obtain ⟨_, _, sends, _, sendIncomplete, _⟩ := h.send.idle date
    exact ⟨receives, sends, incomplete, sendIncomplete⟩
  connects := h.opening.single.1
  opens := h.opening.single.2.1
  posts := h.opening.single.2.2

theorem OpenMove.opening {s s' : Session} {t : Nat} (move : OpenMove s t s') (h : Opening s)
    (configuration : s'.configuration = s.configuration) : Opening s' := by
  cases move with
  | still opens posts date =>
    cases h with
    | connecting tcp before r opens' posts' =>
      exact .connecting (configuration ▸ tcp) (date.trans before) r (opens.trans opens')
        (posts ▸ posts')
    | connected tcp before opens' posts' =>
      exact .connected (configuration ▸ tcp) (date ▸ before) (opens.trans opens') (posts ▸ posts')
    | posted udp before opens' posts' =>
      exact .posted (configuration ▸ udp) (date.trans before) (opens.trans opens')
        (posts.trans posts')
    | started udp before opens' posts' =>
      exact .started (configuration ▸ udp) (date ▸ before) (opens.trans opens')
        (posts.trans posts')
  | opened i failure completes posts date =>
    obtain ⟨_, _, pending, _, after⟩ := Operation.complete_single h.single.1 completes
    cases h with
    | connecting tcp before r opens' posts' =>
      exact .connecting (configuration ▸ tcp) (date.trans before) (some failure) after
        (posts ▸ posts')
    | connected tcp before opens' posts' => simp [opens'] at pending
    | posted udp before opens' posts' => simp [opens'] at pending
    | started udp before opens' posts' => simp [opens'] at pending
  | connect i failure after ready opens posts date =>
    obtain ⟨_, pending, rfl⟩ := Operation.dequeue_single h.single.1 ready
    cases h with
    | connecting tcp before r opens' posts' =>
      exact .connected (configuration ▸ tcp) (by simp [date]) opens (posts ▸ posts')
    | connected tcp before opens' posts' => simp [opens'] at pending
    | posted udp before opens' posts' => simp [opens'] at pending
    | started udp before opens' posts' => simp [opens'] at pending
  | timer i posted opens posts date done =>
    have left : s.posts = [.startTimer] → s'.posts = [] := by
      intro single
      have first : i = 0 := by
        have := (List.getElem?_eq_some_iff.mp posted).1
        simp only [single, List.length_singleton] at this
        omega
      rw [posts, single, first]
      rfl
    cases h with
    | connecting tcp before r opens' posts' =>
      refine .connecting (configuration ▸ tcp) (date.trans before) r (opens.trans opens') (.inl ?_)
      rcases posts' with none | single
      · simp [none] at posted
      · exact left single
    | connected tcp before opens' posts' =>
      refine .connected (configuration ▸ tcp) (date ▸ before) (opens.trans opens') (.inl ?_)
      rcases posts' with none | single
      · simp [none] at posted
      · exact left single
    | posted udp before opens' posts' =>
      have := List.mem_of_getElem? posted
      simp [posts'] at this
    | started udp before opens' posts' => simp [posts'] at posted
  | timerAndTransfer i posted opens posts date =>
    cases h with
    | connecting tcp before r opens' posts' =>
      have := List.mem_of_getElem? posted
      rcases posts' with none | single <;> simp_all
    | connected tcp before opens' posts' =>
      have := List.mem_of_getElem? posted
      rcases posts' with none | single <;> simp_all
    | posted udp before opens' posts' =>
      have first : i = 0 := by
        have := (List.getElem?_eq_some_iff.mp posted).1
        simp only [posts', List.length_singleton] at this
        omega
      refine .started (configuration ▸ udp) (by simp [date]) (opens.trans opens') ?_
      rw [posts, posts', first]
      rfl
    | started udp before opens' posts' => simp [posts'] at posted

theorem Report.abort_iterate (f : ErrorCode) (n : Nat) (r : Report) :
    (Report.abort f)^[n] r =
      if n = 0 then r else ⟨some f, true, List.replicate n f ++ r.aborts⟩ := by
  induction n with
  | zero => rfl
  | succ n ih =>
    rw [Function.iterate_succ_apply', ih]
    cases n <;> simp [Report.abort, List.replicate_succ]

namespace ReportMove

variable {s s' : Session} {e : Event}

/-- A code that is new among the calls of `abort` has its cause in the state before. -/
theorem cause (move : ReportMove s e s') {f : ErrorCode} (member : f ∈ s'.aborts) :
    f ∈ s.aborts ∨ ∃ n, AbortCause s f n ∧ n ≠ 0 := by
  cases move with
  | complete completion event report =>
    have same : s'.aborts = s.aborts := congrArg Report.aborts report
    exact .inl (same ▸ member)
  | invoke handler event g n cause report =>
    have aborts : s'.aborts = _ := congrArg Report.aborts report
    rw [Report.abort_iterate] at aborts
    split at aborts
    next =>
      rw [aborts] at member
      exact .inl member
    next positive =>
      rw [aborts] at member
      rcases List.mem_append.mp member with new | old
      · obtain rfl := (List.mem_replicate.mp new).2
        exact .inr ⟨n, cause, positive⟩
      · exact .inl old

theorem failure (move : ReportMove s e s') (failed : s.failure ≠ none) : s'.failure ≠ none := by
  cases move with
  | complete completion event report =>
    have same : s'.failure = s.failure := congrArg Report.failure report
    exact same ▸ failed
  | invoke handler event f n cause report =>
    have recorded : s'.failure = _ := congrArg Report.failure report
    rw [Report.abort_iterate] at recorded
    split at recorded
    next => exact recorded ▸ failed
    next => simp [recorded]

theorem record (move : ReportMove s e s') (failure : s.failure = s.aborts.head?)
    (exit : s.exitRequested = s.failure.isSome) :
    s'.failure = s'.aborts.head? ∧ s'.exitRequested = s'.failure.isSome := by
  have same : s'.report = s.report → s'.failure = s'.aborts.head? ∧
      s'.exitRequested = s'.failure.isSome := by
    intro report
    have hf : s'.failure = s.failure := congrArg Report.failure report
    have ha : s'.aborts = s.aborts := congrArg Report.aborts report
    have he : s'.exitRequested = s.exitRequested := congrArg Report.exitRequested report
    exact ⟨by rw [hf, ha, failure], by rw [he, hf, exit]⟩
  cases move with
  | complete completion event report => exact same report
  | invoke handler event f n cause report =>
    rw [Report.abort_iterate] at report
    split at report
    next => exact same report
    next some =>
      have hf : s'.failure = _ := congrArg Report.failure report
      have ha : s'.aborts = _ := congrArg Report.aborts report
      have he : s'.exitRequested = _ := congrArg Report.exitRequested report
      obtain ⟨k, rfl⟩ := Nat.exists_eq_succ_of_ne_zero some
      exact ⟨by rw [hf, ha, List.replicate_succ]; rfl, by rw [he, hf]; rfl⟩

end ReportMove

theorem EndMove.ending {s s' : Session} {e : Event} (move : EndMove s e s')
    (reports : ReportMove s e s') (h : Ending s) : Ending s' := by
  obtain ⟨failure, exit⟩ := reports.record h.failure h.exit
  have unfailed : s'.failure = none → s.failure = none := fun clear =>
    of_not_not fun failed => reports.failure failed clear
  -- Only the signals can differ when neither the end nor its record moves.
  have still : s'.isDone = s.isDone → s'.calls.count .onFinish = s.calls.count .onFinish →
      s'.isOpen = s.isOpen →
      (s.isDone = false → ∀ o ∈ s'.signals, ∀ f, o.result ≠ some (.error f)) →
      (s.isDone = false → s'.failure = none → s'.signals ≠ []) → Ending s' := by
    intro done finishes isOpen uncancelled watching
    exact ⟨by rw [done, finishes, h.finishes], by rw [done, isOpen, h.isOpen], failure, exit,
      done ▸ uncancelled, done ▸ watching⟩
  have kept : s'.isDone = s.isDone → s'.calls.count .onFinish = s.calls.count .onFinish →
      s'.isOpen = s.isOpen → s'.signals = s.signals → Ending s' := by
    intro done finishes isOpen signals
    refine still done finishes isOpen (fun undone => signals ▸ h.uncancelled undone) ?_
    intro undone clear
    exact signals ▸ h.watching undone (unfailed clear)
  cases move with
  | chain step =>
    cases step with
    | still view done =>
      exact kept done (congrArg EndView.finishes view) (congrArg EndView.isOpen view)
        (congrArg EndView.signals view)
    | finish view before after =>
      have finishes : s'.calls.count .onFinish = s.calls.count .onFinish + 1 :=
        congrArg EndView.finishes view
      have isOpen : s'.isOpen = false := congrArg EndView.isOpen view
      exact ⟨by rw [finishes, h.finishes, before, after]; rfl, by rw [isOpen, after]; rfl, failure,
        exit, by simp [after], by simp [after]⟩
  | arm duration i p posted view done =>
    exact kept done (congrArg EndView.finishes view) (congrArg EndView.isOpen view)
      (congrArg EndView.signals view)
  | timedOut i after event completes view done =>
    exact kept done (congrArg EndView.finishes view) (congrArg EndView.isOpen view)
      (congrArg EndView.signals view)
  | timeout i x failure after ready view done report =>
    exact kept done (congrArg EndView.finishes view) (congrArg EndView.isOpen view)
      (congrArg EndView.signals view)
  | signalled signal event view done =>
    have signals : s'.signals = Operation.settle (.ok signal) s.signals :=
      congrArg EndView.signals view
    refine still done (congrArg EndView.finishes view) (congrArg EndView.isOpen view) ?_ ?_
    · intro undone o member f
      rw [signals] at member
      obtain ⟨o, before, rfl⟩ := List.mem_map.mp member
      have := h.uncancelled undone o before f
      cases hr : o.result <;> simp_all
    · intro undone clear
      simpa [signals, Operation.settle] using h.watching undone (unfailed clear)
  | signal i r after ready view done report =>
    have signals : s'.signals = after := congrArg EndView.signals view
    obtain ⟨found, rfl⟩ := Operation.dequeue_eq_some ready
    refine still done (congrArg EndView.finishes view) (congrArg EndView.isOpen view) ?_ ?_
    · intro undone o member
      rw [signals] at member
      exact h.uncancelled undone o (List.mem_of_mem_eraseIdx member)
    · intro undone clear
      rcases report with ⟨f, rfl, _⟩ | ⟨n, f, _, report⟩
      · exact absurd rfl (h.uncancelled undone _ (List.mem_of_getElem? found) f)
      · have recorded : s'.failure = some f := congrArg Report.failure report
        simp [recorded] at clear

namespace Sound

theorem step {s s' : Session} {t : Nat} {e : Event} (h : Sound s) (hs : s.step (t, e) = some s') :
    Sound s' := by
  obtain ⟨order, _, _⟩ := Session.step_eq_some hs
  obtain ⟨configuration, draws, now, opening, reports⟩ := Session.step_frame h.tidy hs
  exact {
    size := configuration ▸ h.size
    receive := by
      rw [configuration, now]
      exact (Session.step_receiveMove h.tidy hs).chain h.receive h.size order reports.failure
    send := by
      rw [configuration, draws, now]
      exact (Session.step_sendMove h.tidy hs).chain h.send h.size order reports.failure
    opening := opening.opening h.opening configuration
    ending := (Session.step_endMove h.tidy hs).ending reports h.ending }

theorem create {c : SessionConfiguration} (accepted : Accepted c) (draws : Nat → Nat) (now : Nat) :
    Sound (Session.create c draws now) where
  size := (accepted_iff.mp accepted).2.1
  receive := .unstarted rfl rfl rfl rfl rfl rfl rfl rfl
  send := .unstarted rfl rfl rfl rfl rfl rfl rfl rfl rfl rfl
  opening := by
    cases hp : c.protocol with
    | tcp => exact .connecting hp rfl none (by simp [Session.create, hp, Operation.initiate])
              (.inr (by simp [Session.create, hp]))
    | udp => exact .posted hp rfl (by simp [Session.create, hp]) (by simp [Session.create, hp])
  ending := ⟨rfl, rfl, rfl, rfl, by simp [Session.create, Operation.initiate],
    by simp [Session.create]⟩

/-- A receive that a running session has outstanding fails with a code of the system only. -/
theorem receive_system {s : Session} {call : ReceiveCall} {f : ErrorCode} (h : Sound s)
    (ready : s.receives = [⟨call, some (.error f)⟩]) : f.isSystem = true := by
  obtain ⟨handler, size⟩ := call
  cases handler with
  | onReceive slice =>
    have live := (h.receive.slice ready).live
    exact live f rfl
  | onEof =>
    have live := (h.receive.probe ready).live
    exact live f rfl

theorem send_system {s : Session} {call : SendCall} {f : ErrorCode} (h : Sound s)
    (ready : s.sends = [⟨call, some (.error f)⟩]) : f.isSystem = true := by
  have live := (h.send.slice ready).live
  exact live f rfl

/-- A mismatch is reported by verification and by nothing else. -/
theorem mismatch_cause {s : Session} {n : Nat} (h : Sound s)
    (cause : AbortCause s (.tester .dataMismatch) n) (positive : n ≠ 0) :
    ∃ slice size k, s.receives = [⟨⟨.onReceive slice, size⟩, some (.ok k)⟩] ∧
      s.receiveView.mismatches s.configuration.verify k ≠ 0 := by
  generalize code : ErrorCode.tester .dataMismatch = f at cause
  cases cause with
  | none => exact absurd rfl positive
  | mismatch slice size k ready => exact ⟨slice, size, k, ready, positive⟩
  | unexpectedEof => simp at code
  | unexpectedData => simp at code
  | receive call f other ready =>
    subst code
    exact absurd (h.receive_system ready) (by decide)
  | send call f ready =>
    subst code
    exact absurd (h.send_system ready) (by decide)
  | timeout => simp at code
  | signal o queued signal ready => cases signal <;> simp [Signal.error] at code

theorem onFinish_iff (h : Sound s) : Call.onFinish ∈ s.calls ↔ s.isDone = true := by
  rw [← List.count_pos_iff, h.ending.finishes]
  cases s.isDone <;> simp

/-- A session with nothing outstanding and no failure is done. -/
theorem done_of_idle (h : Sound s) (idle : s.isIdle = true) (clear : s.failure = none) :
    s.isDone = true := by
  simp only [Session.isIdle, Bool.and_eq_true, List.isEmpty_iff] at idle
  by_contra undone
  exact h.ending.watching (by simpa using undone) clear idle.2

/-- Every session reached from an accepted configuration is sound and keeps its configuration. -/
theorem of_reaches {c : SessionConfiguration} (accepted : Accepted c) {draws : Nat → Nat}
    {now : Nat} {events : List (Nat × Event)} {s : Session}
    (reach : Session.Reaches c draws now events s) :
    Sound s ∧ s.configuration = c ∧ s.draws = draws := by
  refine Machine.run_invariant (fun s => Sound s ∧ s.configuration = c ∧ s.draws = draws) ?_
    ⟨create accepted draws now, rfl, rfl⟩ reach
  rintro s ⟨t, e⟩ s' ⟨sound, configuration, hd⟩ hs
  have frame := Session.step_frame sound.tidy hs
  exact ⟨sound.step hs, frame.configuration.trans configuration, frame.draws.trans hd⟩

end Sound

end NetTester

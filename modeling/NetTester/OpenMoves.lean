import NetTester.EndMoves

namespace NetTester

/-- What one event does to the operations that precede the transfer. -/
inductive OpenMove (s : Session) (t : Nat) (s' : Session) : Prop
  | still (opens : s'.opens = s.opens) (posts : s'.posts = s.posts)
      (date : s'.statistics.startDate = s.statistics.startDate)
  | opened (i : Nat) (failure : Option ErrorCode)
      (completes : Operation.complete (fun _ => True) failure s.opens i = some s'.opens)
      (posts : s'.posts = s.posts) (date : s'.statistics.startDate = s.statistics.startDate)
  | connect (i : Nat) (failure : Option ErrorCode)
      (after : List (Operation Unit (Option ErrorCode)))
      (ready : Operation.dequeue s.opens i = some ((), failure, after)) (opens : s'.opens = after)
      (posts : s'.posts = s.posts) (date : s'.statistics.startDate = some t)
  | timer (i : Nat) (posted : s.posts[i]? = some .startTimer) (opens : s'.opens = s.opens)
      (posts : s'.posts = s.posts.eraseIdx i)
      (date : s'.statistics.startDate = s.statistics.startDate) (done : s'.isDone = s.isDone)
  | timerAndTransfer (i : Nat) (posted : s.posts[i]? = some .startTimerAndTransfer)
      (opens : s'.opens = s.opens) (posts : s'.posts = s.posts.eraseIdx i)
      (date : s'.statistics.startDate = some t)

/-- Why a handler calls `abort` with a code, and how often. -/
inductive AbortCause (s : Session) : ErrorCode → Nat → Prop
  | none (f : ErrorCode) : AbortCause s f 0
  | mismatch (slice size n : Nat)
      (ready : s.receives = [⟨⟨.onReceive slice, size⟩, some (.ok n)⟩]) :
      AbortCause s (.tester .dataMismatch)
        (s.receiveView.mismatches s.configuration.verify n)
  | unexpectedEof (slice size : Nat)
      (ready : s.receives = [⟨⟨.onReceive slice, size⟩, some (.error .eof)⟩]) :
      AbortCause s (.tester .unexpectedEof) 1
  | unexpectedData (size n : Nat) (ready : s.receives = [⟨⟨.onEof, size⟩, some (.ok n)⟩]) :
      AbortCause s (.tester .unexpectedData) 1
  | receive (call : ReceiveCall) (f : ErrorCode) (other : f ≠ .eof)
      (ready : s.receives = [⟨call, some (.error f)⟩]) : AbortCause s f 1
  | send (call : SendCall) (f : ErrorCode) (ready : s.sends = [⟨call, some (.error f)⟩]) :
      AbortCause s f 1
  | timeout (o : Operation Int (Option ErrorCode)) (queued : o ∈ s.timeoutTimer)
      (ready : o.result = some .none) : AbortCause s (.tester .testTimeout) 1
  | signal (o : Operation Unit (Except ErrorCode Signal)) (queued : o ∈ s.signals) (n : Signal)
      (ready : o.result = some (.ok n)) : AbortCause s (.tester n.error) 1

/-- The reports one event makes: a handler repeats one code, a completion reports nothing. -/
inductive ReportMove (s : Session) (e : Event) (s' : Session) : Prop
  | complete (completion : Completion) (event : e = .complete completion)
      (report : s'.report = s.report)
  | invoke (handler : Handler) (event : e = .invoke handler) (f : ErrorCode) (n : Nat)
      (cause : AbortCause s f n) (report : s'.report = (Report.abort f)^[n] s.report)

/-- What every event leaves alone, and what it reports. -/
structure StepFrame (s : Session) (t : Nat) (e : Event) (s' : Session) : Prop where
  configuration : s'.configuration = s.configuration
  draws : s'.draws = s.draws
  now : s'.now = t
  opening : OpenMove s t s'
  reports : ReportMove s e s'

theorem StepFrame.of_setting {s s' : Session} {t : Nat} {e : Event}
    (setting : s'.setting = { s.setting with now := t })
    (date : s'.statistics.startDate = s.statistics.startDate) (reports : ReportMove s e s') :
    StepFrame s t e s' where
  configuration := congrArg Setting.configuration setting
  draws := congrArg Setting.draws setting
  now := congrArg Setting.now setting
  opening := .still (congrArg Setting.opens setting) (congrArg Setting.posts setting) date
  reports := reports

namespace Session

variable (s : Session)

theorem onReceive_report {s : Session} {t slice size : Nat} {r : Except ErrorCode Nat}
    (ready : s.receives = [⟨⟨.onReceive slice, size⟩, some r⟩]) :
    ∃ f n, AbortCause s f n ∧ ({ s with now := t, receives := [] }.onReceive r slice).report =
      (Report.abort f)^[n] s.report := by
  simp only [onReceive]
  split
  next => exact ⟨.eof, 0, .none _, rfl⟩
  next => exact ⟨_, 1, .unexpectedEof slice size ready, rfl⟩
  next f _ eof => exact ⟨f, 1, .receive _ f eof ready, rfl⟩
  next k =>
    let u : Session := { s with now := t, receives := [] }
    have same : ((u.verify k).countReceived k).report = _ := verify_report u k
    split
    next => exact ⟨_, _, .mismatch slice size k ready, (asyncReceive_report _ _).trans same⟩
    next => exact ⟨_, _, .mismatch slice size k ready, (finishReceive_report _).trans same⟩

theorem onEof_report {s : Session} {t size : Nat} {r : Except ErrorCode Nat}
    (ready : s.receives = [⟨⟨.onEof, size⟩, some r⟩]) :
    ∃ f n, AbortCause s f n ∧ (TcpSession.onEof r { s with now := t, receives := [] }).report =
      (Report.abort f)^[n] s.report := by
  obtain ⟨u, policy, eq⟩ := TcpSession.onEof_cases r { s with now := t, receives := [] }
  have same : u.report = s.report := by obtain rfl | ⟨-, rfl⟩ := policy <;> rfl
  rw [eq]
  split
  next => exact ⟨.eof, 0, .none _, (onReceiveComplete_report _).trans same⟩
  next f eof =>
    exact ⟨f, 1, .receive _ f eof ready,
      (abort_report _ f).trans (congrArg (Report.abort f) same)⟩
  next n =>
    exact ⟨_, 1, .unexpectedData size n ready,
      (abort_report _ _).trans (congrArg (Report.abort _) same)⟩

theorem onSend_report {s : Session} {t : Nat} {c : SendCall} {r : Except ErrorCode Nat}
    (ready : s.sends = [⟨c, some r⟩]) :
    ∃ f n, AbortCause s f n ∧ ({ s with now := t, sends := [] }.onSend r c).report =
      (Report.abort f)^[n] s.report := by
  simp only [onSend]
  split
  next => exact ⟨.eof, 0, .none _, rfl⟩
  next f _ => exact ⟨f, 1, .send c f ready, rfl⟩
  next n =>
    let u : Session := { s with now := t, sends := [] }
    split
    next => exact ⟨.eof, 0, .none _, asyncSend_report (u.countSent c.offset n) _⟩
    next => exact ⟨.eof, 0, .none _, finishSend_report (u.countSent c.offset n)⟩

theorem startTransfer_date (sends : s.sends = []) (incomplete : s.isSendComplete = false) :
    s.startTransfer.statistics.startDate = some s.now := by
  apply (congrArg SendView.startDate (startTransfer_sendView s sends incomplete)).trans
  split <;> rfl

theorem step_frame {s s' : Session} {t : Nat} {e : Event} (tidy : Tidy s)
    (h : s.step (t, e) = some s') : StepFrame s t e s' := by
  cases step_cases tidy h with
  | opened i failure after completes =>
    exact ⟨rfl, rfl, rfl, .opened i failure completes rfl rfl, .complete _ rfl rfl⟩
  | connect i failure after ready =>
    obtain ⟨_, sends, _, incomplete⟩ :=
      tidy.unstarted (tidy.opens (Operation.ne_nil_of_dequeue ready))
    let u : Session := { s with now := t, opens := after }
    have setting : u.startTransfer.setting = u.setting := startTransfer_setting u
    have report : u.startTransfer.report = s.report := startTransfer_report u
    exact ⟨congrArg Setting.configuration setting, congrArg Setting.draws setting,
      congrArg Setting.now setting,
      .connect i failure after ready (congrArg Setting.opens setting)
        (congrArg Setting.posts setting) (startTransfer_date u sends incomplete),
      .invoke _ rfl .eof 0 (.none _) report⟩
  | startTimer i duration posted =>
    exact ⟨rfl, rfl, rfl, .timer i posted rfl rfl rfl rfl, .invoke _ rfl .eof 0 (.none _) rfl⟩
  | startTimerAndTransfer i duration posted =>
    obtain ⟨_, sends, _, incomplete⟩ := tidy.unstarted (tidy.posts (List.mem_of_getElem? posted))
    let u : Session := { s with
      now := t
      posts := s.posts.eraseIdx i
      timeoutTimer := Operation.settle (some .operationAborted) s.timeoutTimer ++
        [Operation.initiate duration] }
    have setting : u.startTransfer.setting = u.setting := startTransfer_setting u
    have report : u.startTransfer.report = s.report := startTransfer_report u
    exact ⟨congrArg Setting.configuration setting, congrArg Setting.draws setting,
      congrArg Setting.now setting,
      .timerAndTransfer i posted (congrArg Setting.opens setting) (congrArg Setting.posts setting)
        (startTransfer_date u sends incomplete),
      .invoke _ rfl .eof 0 (.none _) report⟩
  | onReceive slice size r ready =>
    let u : Session := { s with now := t, receives := [] }
    obtain ⟨f, k, cause, report⟩ := onReceive_report ready (t := t)
    exact .of_setting (onReceive_setting u r slice)
      (congrArg SendView.startDate (onReceive_sendView u r slice tidy.sendComplete))
      (.invoke _ rfl f k cause report)
  | onEof size r ready =>
    let u : Session := { s with now := t, receives := [] }
    obtain ⟨f, k, cause, report⟩ := onEof_report ready (t := t)
    exact .of_setting (onEof_setting u r)
      (congrArg SendView.startDate (onEof_sendView u r tidy.sendComplete))
      (.invoke _ rfl f k cause report)
  | onSend c r ready =>
    let u : Session := { s with now := t, sends := [] }
    obtain ⟨f, k, cause, report⟩ := onSend_report ready (t := t)
    exact .of_setting (onSend_setting u r c)
      (congrArg ReceiveView.startDate (onSend_receiveView u r c tidy.receiveComplete))
      (.invoke _ rfl f k cause report)
  | receiveSlice x =>
    let throttle := { s.receiveThrottle with waits := [] }.startSlice t
    let u : Session := { s with now := t, receiveThrottle := throttle }
    exact .of_setting (asyncReceive_setting u _)
      (congrArg SendView.startDate (asyncReceive_sendView u _))
      (.invoke _ rfl .eof 0 (.none _) (asyncReceive_report u _))
  | sendSlice x =>
    let throttle := { s.sendThrottle with waits := [] }.startSlice t
    let u : Session := { s with now := t, sendThrottle := throttle }
    exact .of_setting (asyncSend_setting u _)
      (congrArg ReceiveView.startDate (asyncSend_receiveView u _))
      (.invoke _ rfl .eof 0 (.none _) (asyncSend_report u _))
  | timeout i x after ready =>
    have queued := List.mem_of_getElem? (Operation.dequeue_eq_some ready).1
    exact .of_setting rfl rfl (.invoke _ rfl _ 1 (.timeout _ queued rfl) rfl)
  | signal i n after ready =>
    have queued := List.mem_of_getElem? (Operation.dequeue_eq_some ready).1
    exact .of_setting rfl rfl (.invoke _ rfl _ 1 (.signal _ queued _ rfl) rfl)
  | received | receiveFails | sent | sendFails | receiveExpires | sendExpires | timedOut
  | signalled => exact .of_setting rfl rfl (.complete _ rfl rfl)
  | receiveCancelled | sendCancelled | timeoutCancelled | signalCancelled =>
    exact .of_setting rfl rfl (.invoke _ rfl .eof 0 (.none _) rfl)

end Session

end NetTester

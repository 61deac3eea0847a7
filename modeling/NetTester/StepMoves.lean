import NetTester.SessionMoves

namespace NetTester

namespace Session

/-- The session between verification and the next operation. -/
theorem countReceived_receiveView (s : Session) (n : Nat) :
    ((s.verify n).countReceived n).receiveView =
      { s.receiveView with received := s.statistics.receivedBytesCount.add n } := by
  have same := verify_receiveView s n
  have received := congrArg ReceiveView.received same
  simp only [receiveView] at received
  rw [← same]
  simp only [receiveView, countReceived, received]

theorem onReceive_ok_move {s : Session} {t slice size n : Nat} {e : Event}
    (ready : s.receives = [⟨⟨.onReceive slice, size⟩, some (.ok n)⟩]) :
    ReceiveMove s t e ({ s with now := t, receives := [] }.onReceive (.ok n) slice) := by
  let u : Session := { s with now := t, receives := [] }
  have view := countReceived_receiveView u n
  have report : ((u.verify n).countReceived n).report = _ := verify_report u n
  have setting : ((u.verify n).countReceived n).setting = u.setting := verify_setting u n
  have configuration : ((u.verify n).countReceived n).configuration = s.configuration :=
    congrArg Setting.configuration setting
  have received : ((u.verify n).countReceived n).statistics.receivedBytesCount =
      s.statistics.receivedBytesCount.add n := congrArg ReceiveView.received view
  have receives : ((u.verify n).countReceived n).receives = [] :=
    congrArg ReceiveView.receives view
  change ReceiveMove s t e (if ((u.verify n).countReceived n).statistics.receivedBytesCount.value <
    ((u.verify n).countReceived n).configuration.size.value then _ else _)
  rw [received, configuration]
  split
  next short =>
    refine .resume slice size n ready short ?_ ((asyncReceive_report _ _).trans report)
    rw [asyncReceive_receiveView, view]
    rfl
  next full =>
    refine .finish slice size n ready (Nat.le_of_not_lt full) ?_
      ((finishReceive_report _).trans report)
    rw [finishReceive_receiveView _ receives, view, configuration]
    rfl

theorem onEof_move {s : Session} {t size : Nat} {e : Event} {r : Except ErrorCode Nat}
    (ready : s.receives = [⟨⟨.onEof, size⟩, some r⟩]) :
    ReceiveMove s t e (TcpSession.onEof r { s with now := t, receives := [] }) := by
  let u : Session := { s with now := t, receives := [] }
  obtain ⟨v, policy, eq⟩ := TcpSession.onEof_cases r u
  have ⟨view, report⟩ : v.receiveView = u.receiveView ∧ v.report = s.report := by
    obtain rfl | ⟨-, rfl⟩ := policy <;> exact ⟨rfl, rfl⟩
  have aborts : ∀ f (w : Session), w.receiveView = u.receiveView → w.report = s.report →
      r ≠ .error .eof →
      ReceiveMove s t e (w.abort f) := fun f w view report bad =>
    .stop ⟨.onEof, size⟩ r f ready bad ((abort_receiveView w f).trans view)
      (by rw [abort_report, report])
  rw [eq]
  split
  next =>
    refine .eof size ready ?_ ((onReceiveComplete_report _).trans report)
    exact (onReceiveComplete_receiveView _ (congrArg ReceiveView.receives view)).trans
      (congrArg (fun v : ReceiveView => { v with isComplete := true }) view)
  next f bad => exact aborts f _ view report fun eq => bad (Except.error.inj eq)
  next n => exact aborts _ _ view report (by simp)

theorem onReceive_move {s : Session} {t slice size : Nat} {e : Event} {r : Except ErrorCode Nat}
    (ready : s.receives = [⟨⟨.onReceive slice, size⟩, some r⟩]) :
    ReceiveMove s t e ({ s with now := t, receives := [] }.onReceive r slice) := by
  cases r with
  | ok n => exact onReceive_ok_move ready
  | error f =>
    simp only [onReceive]
    split
    next eq => cases eq; exact .aborted _ ready
    next => exact .stop _ _ _ ready ⟨f, rfl⟩ rfl rfl
    next => exact .stop _ _ _ ready ⟨f, rfl⟩ rfl rfl
    next eq => cases eq

theorem startTransfer_receiveMove {s : Session} {t : Nat} {e : Event}
    (tidy : Tidy s) (unstarted : s.statistics.startDate = none) {u : Session}
    (view : u.receiveView = s.receiveView)
    (now : u.now = t) (configuration : u.configuration = s.configuration) :
    ReceiveMove s t e u.startTransfer := by
  obtain ⟨receives, _, incomplete, _⟩ := tidy.unstarted unstarted
  have started := startTransfer_receiveView u ((congrArg ReceiveView.receives view).trans receives)
    ((congrArg ReceiveView.isComplete view).trans incomplete)
  have throttle : u.receiveThrottle = s.receiveThrottle := congrArg ReceiveView.throttle view
  rw [configuration, now, view, throttle] at started
  split at started
  next unused => exact .startUnused unstarted unused started
  next used => exact .start unstarted used started

theorem step_receiveMove {s s' : Session} {t : Nat} {e : Event} (tidy : Tidy s)
    (h : s.step (t, e) = some s') : ReceiveMove s t e s' := by
  cases step_cases tidy h with
  | received data c pending fits stream =>
    exact .fill 0 data c rfl pending fits stream rfl rfl
  | receiveFails f c pending failed => exact .fail 0 f c rfl pending failed rfl rfl
  | receiveExpires x pending due => exact .expire x pending due rfl
  | connect i failure after ready =>
    have unstarted := tidy.opens (Operation.ne_nil_of_dequeue ready)
    exact startTransfer_receiveMove tidy unstarted rfl rfl rfl
  | startTimerAndTransfer i duration posted =>
    have unstarted := tidy.posts (List.mem_of_getElem? posted)
    exact startTransfer_receiveMove tidy unstarted rfl rfl rfl
  | onReceive slice size r ready => exact onReceive_move ready
  | onEof size r ready => exact onEof_move ready
  | onSend c r =>
    exact .still (onSend_receiveView _ r c tidy.receiveComplete) (by simp)
  | receiveSlice x ready => exact .slice x ready (asyncReceive_receiveView _ _)
  | receiveCancelled x f ready => exact .cancelled x f ready
  | sendSlice => exact .still (asyncSend_receiveView _ _) (by simp)
  | opened | sent | sendFails | sendExpires | timedOut | signalled | startTimer | sendCancelled
  | timeout | timeoutCancelled | signal | signalCancelled => exact .still rfl (by simp)

theorem onSend_move {s : Session} {t : Nat} {e : Event} {c : SendCall} {r : Except ErrorCode Nat}
    (ready : s.sends = [⟨c, some r⟩]) :
    SendMove s t e ({ s with now := t, sends := [] }.onSend r c) := by
  simp only [onSend]
  split
  next => exact .aborted c ready
  next f _ => exact .stop c f ready (abort_sendView _ _) rfl
  next n =>
    split
    next short =>
      exact .resume c n ready short
        (asyncSend_sendView ({ s with now := t, sends := [] }.countSent c.offset n) _)
    next full =>
      exact .finish c n ready (Nat.le_of_not_lt full) (finishSend_sendView _ rfl)

theorem startTransfer_sendMove {s : Session} {t : Nat} {e : Event}
    (tidy : Tidy s) (unstarted : s.statistics.startDate = none) {u : Session}
    (view : u.sendView = s.sendView) (now : u.now = t)
    (configuration : u.configuration = s.configuration) :
    SendMove s t e u.startTransfer := by
  obtain ⟨_, sends, _, incomplete⟩ := tidy.unstarted unstarted
  have started := startTransfer_sendView u ((congrArg SendView.sends view).trans sends)
    ((congrArg SendView.isComplete view).trans incomplete)
  have throttle : u.sendThrottle = s.sendThrottle := congrArg SendView.throttle view
  rw [configuration, now, view, throttle] at started
  split at started
  next unused => exact .startUnused unstarted unused started
  next used => exact .start unstarted used started

theorem step_sendMove {s s' : Session} {t : Nat} {e : Event} (tidy : Tidy s)
    (h : s.step (t, e) = some s') : SendMove s t e s' := by
  cases step_cases tidy h with
  | sent n c pending fits => exact .fill 0 n c rfl pending fits rfl
  | sendFails f c pending failed => exact .fail 0 f c rfl pending failed rfl
  | sendExpires x pending due => exact .expire x pending due rfl
  | connect i failure after ready =>
    have unstarted := tidy.opens (Operation.ne_nil_of_dequeue ready)
    exact startTransfer_sendMove tidy unstarted rfl rfl rfl
  | startTimerAndTransfer i duration posted =>
    have unstarted := tidy.posts (List.mem_of_getElem? posted)
    exact startTransfer_sendMove tidy unstarted rfl rfl rfl
  | onReceive slice size r =>
    exact .still (onReceive_sendView _ r slice tidy.sendComplete) (by simp)
  | onEof size r => exact .still (onEof_sendView _ r tidy.sendComplete) (by simp)
  | onSend c r ready => exact onSend_move ready
  | receiveSlice => exact .still (asyncReceive_sendView _ _) (by simp)
  | sendSlice x ready =>
    let throttle := { s.sendThrottle with waits := [] }.startSlice t
    exact .slice x ready (asyncSend_sendView { s with now := t, sendThrottle := throttle } _)
  | sendCancelled x f ready => exact .cancelled x f ready
  | opened | received | receiveFails | receiveExpires | timedOut | signalled | startTimer
  | receiveCancelled | timeout | timeoutCancelled | signal | signalCancelled =>
    exact .still rfl (by simp)

end Session

end NetTester

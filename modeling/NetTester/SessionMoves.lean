import NetTester.SessionViews
import NetTester.StepCases

namespace NetTester

/-- What one event does to the receive chain, with what the state before it was. -/
inductive ReceiveMove (s : Session) (t : Nat) (e : Event) (s' : Session) : Prop
  | still (view : s'.receiveView = s.receiveView) (other : ∀ i r, e ≠ .complete (.received i r))
  | start (unstarted : s.statistics.startDate = none) (used : s.configuration.direction ≠ .tx)
      (view : s'.receiveView = ReceiveView.ask 0 { s.receiveView with
        startDate := some t, throttle := s.receiveThrottle.reset t })
  | startUnused (unstarted : s.statistics.startDate = none)
      (unused : s.configuration.direction = .tx)
      (view : s'.receiveView = ReceiveView.finish s.configuration.protocol { s.receiveView with
        startDate := some t })
  | expire (x : Nat) (waits : s.receiveThrottle.waits = [⟨x, none⟩]) (due : x ≤ t)
      (view : s'.receiveView = { s.receiveView with
        throttle := { s.receiveThrottle with waits := [⟨x, some none⟩] } })
  | slice (x : Nat) (waits : s.receiveThrottle.waits = [⟨x, some none⟩])
      (view : s'.receiveView =
        ReceiveView.ask s.receiveThrottle.sliceBytesCount { s.receiveView with
          throttle := { s.receiveThrottle with waits := [] }.startSlice t })
  | cancelled (x : Nat) (f : ErrorCode) (waits : s.receiveThrottle.waits = [⟨x, some (some f)⟩])
  | fill (i : Nat) (data : List UInt8) (c : ReceiveCall)
      (event : e = .complete (.received i (.ok data))) (pending : s.receives = [⟨c, none⟩])
      (fits : data.length ≤ c.bufferSize) (stream : s.configuration.protocol = .tcp → data ≠ [])
      (view : s'.receiveView = { s.receiveView with
        buffer := writeBuffer s.receiveBuffer data, receives := [⟨c, some (.ok data.length)⟩] })
      (report : s'.report = s.report)
  | fail (i : Nat) (f : ErrorCode) (c : ReceiveCall)
      (event : e = .complete (.received i (.error f))) (pending : s.receives = [⟨c, none⟩])
      (failed : f.isSystem = true)
      (view : s'.receiveView = { s.receiveView with receives := [⟨c, some (.error f)⟩] })
      (report : s'.report = s.report)
  | resume (slice size n : Nat) (ready : s.receives = [⟨⟨.onReceive slice, size⟩, some (.ok n)⟩])
      (short : (s.statistics.receivedBytesCount.add n).value < s.configuration.size.value)
      (view : s'.receiveView = ReceiveView.ask (sub64 slice n) { s.receiveView with
        received := s.statistics.receivedBytesCount.add n, receives := [] })
      (report : s'.report = (Report.abort (.tester .dataMismatch))^[
        s.receiveView.mismatches s.configuration.verify n] s.report)
  | finish (slice size n : Nat) (ready : s.receives = [⟨⟨.onReceive slice, size⟩, some (.ok n)⟩])
      (full : s.configuration.size.value ≤ (s.statistics.receivedBytesCount.add n).value)
      (view : s'.receiveView = ReceiveView.finish s.configuration.protocol { s.receiveView with
        received := s.statistics.receivedBytesCount.add n, receives := [] })
      (report : s'.report = (Report.abort (.tester .dataMismatch))^[
        s.receiveView.mismatches s.configuration.verify n] s.report)
  | aborted (c : ReceiveCall) (ready : s.receives = [⟨c, some (.error .operationAborted)⟩])
  | stop (c : ReceiveCall) (r : Except ErrorCode Nat) (f : ErrorCode)
      (ready : s.receives = [⟨c, some r⟩])
      (bad : match c.handler with
        | .onReceive _ => ∃ g, r = .error g
        | .onEof => r ≠ .error .eof)
      (view : s'.receiveView = { s.receiveView with receives := [] })
      (report : s'.report = s.report.abort f)
  | eof (size : Nat) (ready : s.receives = [⟨⟨.onEof, size⟩, some (.error .eof)⟩])
      (view : s'.receiveView = { s.receiveView with receives := [], isComplete := true })
      (report : s'.report = s.report)

/-- What one event does to the send chain, with what the state before it was. -/
inductive SendMove (s : Session) (t : Nat) (e : Event) (s' : Session) : Prop
  | still (view : s'.sendView = s.sendView) (other : ∀ i r, e ≠ .complete (.sent i r))
  | start (unstarted : s.statistics.startDate = none) (used : s.configuration.direction ≠ .rx)
      (view : s'.sendView = { s.sendView with
        startDate := some t, throttle := (s.sendThrottle.reset t).delay })
  | startUnused (unstarted : s.statistics.startDate = none)
      (unused : s.configuration.direction = .rx)
      (view : s'.sendView = SendView.finish { s.sendView with startDate := some t })
  | expire (x : Nat) (waits : s.sendThrottle.waits = [⟨x, none⟩]) (due : x ≤ t)
      (view : s'.sendView = { s.sendView with
        throttle := { s.sendThrottle with waits := [⟨x, some none⟩] } })
  | slice (x : Nat) (waits : s.sendThrottle.waits = [⟨x, some none⟩])
      (view : SendAsk s.configuration s.draws s.sendThrottle.sliceBytesCount { s.sendView with
        throttle := { s.sendThrottle with waits := [] }.startSlice t } s'.sendView)
  | cancelled (x : Nat) (f : ErrorCode) (waits : s.sendThrottle.waits = [⟨x, some (some f)⟩])
  | fill (i n : Nat) (c : SendCall) (event : e = .complete (.sent i (.ok n)))
      (pending : s.sends = [⟨c, none⟩]) (fits : n ≤ c.size)
      (view : s'.sendView = { s.sendView with sends := [⟨c, some (.ok n)⟩] })
  | fail (i : Nat) (f : ErrorCode) (c : SendCall) (event : e = .complete (.sent i (.error f)))
      (pending : s.sends = [⟨c, none⟩]) (failed : f.isSystem = true)
      (view : s'.sendView = { s.sendView with sends := [⟨c, some (.error f)⟩] })
  | resume (c : SendCall) (n : Nat) (ready : s.sends = [⟨c, some (.ok n)⟩])
      (short : (s.statistics.sentBytesCount.add n).value < s.configuration.size.value)
      (view : SendAsk s.configuration s.draws (sub64 c.sliceRemainingSize n) { s.sendView with
        sent := s.statistics.sentBytesCount.add n
        accepted := s.accepted ++ (List.range n).map fun i => sendBuffer (c.offset + i)
        sends := [] } s'.sendView)
  | finish (c : SendCall) (n : Nat) (ready : s.sends = [⟨c, some (.ok n)⟩])
      (full : s.configuration.size.value ≤ (s.statistics.sentBytesCount.add n).value)
      (view : s'.sendView = SendView.finish { s.sendView with
        sent := s.statistics.sentBytesCount.add n
        accepted := s.accepted ++ (List.range n).map fun i => sendBuffer (c.offset + i)
        sends := [] })
  | aborted (c : SendCall) (ready : s.sends = [⟨c, some (.error .operationAborted)⟩])
  | stop (c : SendCall) (f : ErrorCode) (ready : s.sends = [⟨c, some (.error f)⟩])
      (view : s'.sendView = { s.sendView with sends := [] })
      (report : s'.report = s.report.abort f)

namespace Session

variable (s : Session)

theorem onSend_receiveView (r : Except ErrorCode Nat) (c : SendCall)
    (idle : s.isReceiveComplete = true → s.receives = []) :
    (s.onSend r c).receiveView = s.receiveView := by
  simp only [onSend]
  split
  next => rfl
  next => exact abort_receiveView s _
  next =>
    split
    next => exact asyncSend_receiveView _ _
    next => exact finishSend_receiveView _ idle

theorem onReceive_sendView (r : Except ErrorCode Nat) (n : Nat)
    (idle : s.isSendComplete = true → s.sends = []) :
    (s.onReceive r n).sendView = s.sendView := by
  simp only [onReceive]
  split
  next => rfl
  next => exact abort_sendView s _
  next => exact abort_sendView s _
  next k =>
    have same : ((s.verify k).countReceived k).sendView = s.sendView := verify_sendView s k
    have complete : ((s.verify k).countReceived k).isSendComplete = true →
        ((s.verify k).countReceived k).sends = [] := by
      have flag := congrArg SendView.isComplete same
      have list := congrArg SendView.sends same
      simp only [sendView] at flag list
      rw [flag, list]
      exact idle
    split
    next => exact (asyncReceive_sendView _ _).trans same
    next => exact (finishReceive_sendView _ complete).trans same

theorem onEof_sendView (r : Except ErrorCode Nat)
    (idle : s.isSendComplete = true → s.sends = []) :
    (TcpSession.onEof r s).sendView = s.sendView := by
  obtain ⟨u, policy, eq⟩ := TcpSession.onEof_cases r s
  have ⟨same, complete⟩ : u.sendView = s.sendView ∧ (u.isSendComplete = true → u.sends = []) := by
    obtain rfl | ⟨-, rfl⟩ := policy <;> exact ⟨by simp [sendView, shutdownSend, call], idle⟩
  rw [eq]
  split
  next => exact (onReceiveComplete_sendView _ complete).trans same
  next => exact (abort_sendView _ _).trans same
  next => exact (abort_sendView _ _).trans same

theorem onReceive_setting (r : Except ErrorCode Nat) (n : Nat) :
    (s.onReceive r n).setting = s.setting := by
  simp only [onReceive]
  split
  next => rfl
  next => rfl
  next => rfl
  next k =>
    have same : ((s.verify k).countReceived k).setting = s.setting := verify_setting s k
    split
    next => exact (asyncReceive_setting _ _).trans same
    next => exact (finishReceive_setting _).trans same

theorem onEof_setting (r : Except ErrorCode Nat) : (TcpSession.onEof r s).setting = s.setting := by
  obtain ⟨u, policy, eq⟩ := TcpSession.onEof_cases r s
  have same : u.setting = s.setting := by obtain rfl | ⟨-, rfl⟩ := policy <;> rfl
  rw [eq]
  split
  next => exact (onReceiveComplete_setting _).trans same
  next => exact (abort_setting _ _).trans same
  next => exact (abort_setting _ _).trans same

theorem onSend_setting (r : Except ErrorCode Nat) (c : SendCall) :
    (s.onSend r c).setting = s.setting := by
  simp only [onSend]
  split
  next => rfl
  next => rfl
  next n =>
    split
    next => exact asyncSend_setting (s.countSent c.offset n) _
    next => exact finishSend_setting (s.countSent c.offset n)

theorem startReceiving_receiveView (receives : s.receives = []) :
    s.startReceiving.receiveView =
      if s.configuration.direction = .tx then
        s.receiveView.finish s.configuration.protocol
      else
        ReceiveView.ask 0 { s.receiveView with throttle := s.receiveThrottle.reset s.now } := by
  unfold startReceiving
  split
  next => exact finishReceive_receiveView s receives
  next => exact asyncReceive_receiveView _ 0

theorem startReceiving_sendView (idle : s.isSendComplete = true → s.sends = []) :
    s.startReceiving.sendView = s.sendView := by
  unfold startReceiving
  split
  next => exact finishReceive_sendView s idle
  next => exact asyncReceive_sendView _ 0

@[simp] theorem startReceiving_setting : s.startReceiving.setting = s.setting := by
  unfold startReceiving
  split
  next => exact finishReceive_setting s
  next => exact asyncReceive_setting _ 0

@[simp] theorem startReceiving_report : s.startReceiving.report = s.report := by
  unfold startReceiving
  split
  next => exact finishReceive_report s
  next => exact asyncReceive_report _ 0

theorem startReceiving_endView (incomplete : s.isSendComplete = false) :
    s.startReceiving.endView = s.endView := by
  unfold startReceiving
  split
  next => simp [finishReceive_endView, incomplete]
  next => exact asyncReceive_endView _ 0

theorem startSending_sendView (sends : s.sends = []) :
    s.startSending.sendView =
      if s.configuration.direction = .rx then
        s.sendView.finish
      else
        { s.sendView with throttle := (s.sendThrottle.reset s.now).delay } := by
  unfold startSending
  split
  next => exact finishSend_sendView s sends
  next =>
    rw [asyncSend_zero]
    rfl

theorem startSending_receiveView (idle : s.isReceiveComplete = true → s.receives = []) :
    s.startSending.receiveView = s.receiveView := by
  unfold startSending
  split
  next => exact finishSend_receiveView s idle
  next => exact asyncSend_receiveView _ 0

@[simp] theorem startSending_setting : s.startSending.setting = s.setting := by
  unfold startSending
  split
  next => exact finishSend_setting s
  next => exact asyncSend_setting _ 0

@[simp] theorem startSending_report : s.startSending.report = s.report := by
  unfold startSending
  split
  next => exact finishSend_report s
  next => exact asyncSend_report _ 0

theorem startSending_endView
    (incomplete : s.configuration.direction = .rx → s.isReceiveComplete = false) :
    s.startSending.endView = s.endView := by
  unfold startSending
  split
  next rx => simp [finishSend_endView, incomplete rx]
  next => exact asyncSend_endView _ 0

theorem startTransfer_receiveView (receives : s.receives = [])
    (incomplete : s.isReceiveComplete = false) :
    s.startTransfer.receiveView =
      if s.configuration.direction = .tx then
        ReceiveView.finish s.configuration.protocol { s.receiveView with startDate := some s.now }
      else
        ReceiveView.ask 0 { s.receiveView with
          startDate := some s.now, throttle := s.receiveThrottle.reset s.now } := by
  have view := startReceiving_receiveView
    { s with statistics := { s.statistics with startDate := some s.now } } receives
  refine (startSending_receiveView _ fun complete => ?_).trans view
  have flag := congrArg ReceiveView.isComplete view
  have list := congrArg ReceiveView.receives view
  apply list.trans
  replace flag := flag.symm.trans complete
  split at flag
  next tx =>
    rw [if_pos tx]
    cases hp : s.configuration.protocol <;>
      simp_all [ReceiveView.finish, receiveView]
  next => simp [ReceiveView.ask, receiveView, incomplete] at flag

theorem startTransfer_sendView (sends : s.sends = []) (incomplete : s.isSendComplete = false) :
    s.startTransfer.sendView =
      if s.configuration.direction = .rx then
        SendView.finish { s.sendView with startDate := some s.now }
      else
        { s.sendView with
          startDate := some s.now, throttle := (s.sendThrottle.reset s.now).delay } := by
  let stamped : Session := { s with statistics := { s.statistics with startDate := some s.now } }
  have view : stamped.startReceiving.sendView = stamped.sendView :=
    startReceiving_sendView stamped fun complete =>
      absurd (incomplete.symm.trans complete) (by simp)
  have setting : stamped.startReceiving.setting = s.setting := startReceiving_setting stamped
  have list := congrArg SendView.sends view
  have half := startSending_sendView stamped.startReceiving (list.trans sends)
  have direction : stamped.startReceiving.configuration.direction = s.configuration.direction :=
    congrArg (fun v => v.configuration.direction) setting
  have throttle : stamped.startReceiving.sendThrottle = s.sendThrottle :=
    congrArg SendView.throttle view
  have now : stamped.startReceiving.now = s.now := congrArg Setting.now setting
  rw [view, direction, throttle, now] at half
  exact half

theorem startTransfer_setting : s.startTransfer.setting = s.setting :=
  (startSending_setting _).trans (startReceiving_setting _)

theorem startTransfer_report : s.startTransfer.report = s.report :=
  (startSending_report _).trans (startReceiving_report _)

theorem startTransfer_endView (receives : s.receives = [])
    (incomplete : s.isReceiveComplete = false) (sendIncomplete : s.isSendComplete = false) :
    s.startTransfer.endView = s.endView := by
  let stamped : Session := { s with statistics := { s.statistics with startDate := some s.now } }
  refine (startSending_endView stamped.startReceiving fun rx => ?_).trans
    (startReceiving_endView stamped sendIncomplete)
  have setting : stamped.startReceiving.setting = s.setting := startReceiving_setting stamped
  have direction : s.configuration.direction = .rx :=
    (congrArg (fun v => v.configuration.direction) setting).symm.trans rx
  have view := startReceiving_receiveView stamped receives
  rw [if_neg (by simp [stamped, direction])] at view
  exact (congrArg ReceiveView.isComplete view).trans incomplete

end Session

end NetTester

import NetTester.Finished

namespace NetTester

/-- What a step does about the end of its session: nothing, or `on_finish` as its last act. -/
inductive Closing (s s' : Session) : Prop
  | still (same : s'.calls.count .onFinish = s.calls.count .onFinish)
  | finish (u : Session) (last : s' = u.onFinish) (receive : u.isReceiveComplete = true)
      (send : u.isSendComplete = true) (before : u.calls.count .onFinish = s.calls.count .onFinish)

/-- No operation on the socket and no wait of a throttle is outstanding. -/
structure Still (s : Session) : Prop where
  opens : s.opens = []
  receives : s.receives = []
  sends : s.sends = []
  receiveWaits : s.receiveThrottle.waits = []
  sendWaits : s.sendThrottle.waits = []

namespace Closing

variable {s u w : Session}

theorem of_endView (view : w.endView = s.endView) : Closing s w :=
  .still (congrArg EndView.finishes view)

theorem after_still (h : Closing u w) (same : u.calls.count .onFinish = s.calls.count .onFinish) :
    Closing s w := by
  cases h with
  | still same' => exact .still (same'.trans same)
  | finish v last receive send before => exact .finish v last receive send (before.trans same)

end Closing

namespace Session

variable (s : Session)

theorem onReceiveComplete_closing : Closing s s.onReceiveComplete := by
  simp only [onReceiveComplete]
  split
  next send => exact .finish { s with isReceiveComplete := true } rfl rfl send rfl
  next => exact .still rfl

theorem onSendComplete_closing : Closing s s.onSendComplete := by
  simp only [onSendComplete]
  split
  next receive => exact .finish { s with isSendComplete := true } rfl receive rfl rfl
  next => exact .still rfl

theorem finishReceive_closing : Closing s s.finishReceive := by
  unfold finishReceive
  cases s.configuration.protocol with
  | tcp =>
    simp only [TcpSession.finishReceive]
    split <;> exact .still (by simp [startReceive, shutdownSend, stampReceive])
  | udp => exact (onReceiveComplete_closing s.stampReceive).after_still (by simp [stampReceive])

theorem finishSend_closing : Closing s s.finishSend := by
  unfold finishSend
  cases s.configuration.protocol with
  | tcp =>
    simp only [TcpSession.finishSend]
    split <;>
      exact (onSendComplete_closing _).after_still (by simp [shutdownSend, stampSend])
  | udp => exact (onSendComplete_closing s.stampSend).after_still (by simp [stampSend])

theorem onReceive_closing (r : Except ErrorCode Nat) (n : Nat) : Closing s (s.onReceive r n) := by
  simp only [onReceive]
  split
  next => exact .still rfl
  next => exact .of_endView (abort_endView s _)
  next => exact .of_endView (abort_endView s _)
  next k =>
    have same : ((s.verify k).countReceived k).calls.count .onFinish = s.calls.count .onFinish :=
      congrArg EndView.finishes (verify_endView s k)
    split
    next => exact .still ((congrArg EndView.finishes (asyncReceive_endView _ _)).trans same)
    next => exact (finishReceive_closing _).after_still same

theorem onEof_closing (r : Except ErrorCode Nat) : Closing s (TcpSession.onEof r s) := by
  obtain ⟨u, policy, eq⟩ := TcpSession.onEof_cases r s
  have same : u.calls.count .onFinish = s.calls.count .onFinish := by
    obtain rfl | ⟨-, rfl⟩ := policy <;> simp [shutdownSend, call]
  rw [eq]
  split
  next => exact (onReceiveComplete_closing u).after_still same
  next => exact (Closing.of_endView (abort_endView u _)).after_still same
  next => exact (Closing.of_endView (abort_endView u _)).after_still same

theorem onSend_closing (r : Except ErrorCode Nat) (c : SendCall) : Closing s (s.onSend r c) := by
  simp only [onSend]
  split
  next => exact .still rfl
  next => exact .of_endView (abort_endView s _)
  next n =>
    split
    next => exact .of_endView (asyncSend_endView (s.countSent c.offset n) _)
    next => exact (finishSend_closing (s.countSent c.offset n)).after_still rfl

end Session

/-- A session finishes in the last act of one of its handlers. -/
theorem Session.step_closing {s s' : Session} {t : Nat} {e : Event} (tidy : Tidy s)
    (h : s.step (t, e) = some s') : Closing s s' := by
  cases step_cases tidy h with
  | connect i failure after ready =>
    let u : Session := { s with now := t, opens := after }
    have unstarted := tidy.opens (Operation.ne_nil_of_dequeue ready)
    exact .of_endView (startTransfer_end (u := u) tidy unstarted rfl rfl).1
  | startTimerAndTransfer i duration posted =>
    let u : Session := { s with
      now := t
      posts := s.posts.eraseIdx i
      timeoutTimer := Operation.settle (some .operationAborted) s.timeoutTimer ++
        [Operation.initiate duration] }
    have unstarted := tidy.posts (List.mem_of_getElem? posted)
    exact .still (congrArg EndView.finishes
      (startTransfer_end (u := u) tidy unstarted rfl rfl).1)
  | onReceive slice size r => exact (onReceive_closing _ r slice).after_still rfl
  | onEof size r => exact (onEof_closing _ r).after_still rfl
  | onSend c r => exact (onSend_closing _ r c).after_still rfl
  | receiveSlice => exact .still (congrArg EndView.finishes (asyncReceive_endView _ _))
  | sendSlice => exact .still (congrArg EndView.finishes (asyncSend_endView _ _))
  | timeout => exact (Closing.of_endView (abort_endView _ _)).after_still rfl
  | signal => exact (Closing.of_endView (abort_endView _ _)).after_still rfl
  | opened | received | receiveFails | sent | sendFails | receiveExpires | sendExpires | timedOut
  | signalled | startTimer | receiveCancelled | sendCancelled | timeoutCancelled
  | signalCancelled => exact .still rfl

namespace Sound

variable {s : Session}

theorem still (h : Sound s) (done : s.isDone = true) : Still s := by
  obtain ⟨receives, sends, receiveWaits, sendWaits, opens, _⟩ := h.done done
  exact ⟨opens, receives, sends, receiveWaits, sendWaits⟩

/-- A receive never ends with the code of a cancellation. -/
theorem receive_uncancelled (h : Sound s) {o : Operation ReceiveCall (Except ErrorCode Nat)}
    (member : o ∈ s.receives) : o.result ≠ some (.error .operationAborted) := by
  intro result
  obtain ⟨call, _⟩ := o
  have single : s.receives = [⟨call, some (.error .operationAborted)⟩] := by
    obtain ⟨o, receives⟩ := List.length_eq_one_iff.mp
      (Nat.le_antisymm h.receive.single.1 (List.length_pos_of_mem member))
    have receives : s.receives = [o] := receives
    cases result
    simpa [receives, eq_comm] using member
  exact absurd (h.receive_system single) (by decide)

theorem send_uncancelled (h : Sound s) {o : Operation SendCall (Except ErrorCode Nat)}
    (member : o ∈ s.sends) : o.result ≠ some (.error .operationAborted) := by
  intro result
  obtain ⟨call, _⟩ := o
  have single : s.sends = [⟨call, some (.error .operationAborted)⟩] := by
    obtain ⟨o, sends⟩ := List.length_eq_one_iff.mp
      (Nat.le_antisymm h.send.single.1 (List.length_pos_of_mem member))
    have sends : s.sends = [o] := sends
    cases result
    simpa [sends, eq_comm] using member
  exact absurd (h.send_system single) (by decide)

end Sound

/-- A session finishes at most once, when both sides are complete and nothing is outstanding on its
socket and its throttles; nothing is started afterwards, so that the close cancels no operation. -/
theorem finishes_still {c : SessionConfiguration} (accepted : Accepted c) {draws : Nat → Nat}
    {now : Nat} {events : List (Nat × Event)} {s : Session}
    (reach : Session.Reaches c draws now events s) :
    s.calls.count .onFinish ≤ 1 ∧
    (∀ t e s', s.step (t, e) = some s' → Call.onFinish ∉ s.calls → Call.onFinish ∈ s'.calls →
      ∃ u, s' = u.onFinish ∧ Call.onFinish ∉ u.calls ∧ u.isReceiveComplete = true ∧
        u.isSendComplete = true ∧ Still u) ∧
    (Call.onFinish ∈ s.calls →
      s.isReceiveComplete = true ∧ s.isSendComplete = true ∧ Still s) ∧
    (∀ o ∈ s.receives, o.result ≠ some (.error .operationAborted)) ∧
    (∀ o ∈ s.sends, o.result ≠ some (.error .operationAborted)) := by
  obtain ⟨sound, _, _⟩ := Sound.of_reaches accepted reach
  have done_of_mem : ∀ {u : Session}, Sound u → Call.onFinish ∈ u.calls → u.isDone = true := by
    intro u sound member
    have count := sound.ending.finishes
    have positive := List.count_pos_iff.mpr member
    by_contra undone
    rw [if_neg undone] at count
    omega
  refine ⟨?_, fun t e s' hs before after => ?_, fun member => ?_,
    fun o member => sound.receive_uncancelled member, fun o member => sound.send_uncancelled member⟩
  · rw [sound.ending.finishes]
    split <;> omega
  · have sound' := sound.step hs
    obtain ⟨opens, receives, sends, receiveWaits, sendWaits⟩ :=
      sound'.still (done_of_mem sound' after)
    have unfinished : s.calls.count .onFinish = 0 := List.count_eq_zero_of_not_mem before
    have finished : s'.calls.count .onFinish ≠ 0 := (List.count_pos_iff.mpr after).ne'
    cases Session.step_closing sound.tidy hs with
    | still same => exact absurd (same.trans unfinished) finished
    | finish u last receive send same =>
      subst last
      -- The close settles what is outstanding and removes nothing.
      have nothing : u.receives = [] ∧ u.sends = [] :=
        ⟨List.map_eq_nil_iff.mp receives, List.map_eq_nil_iff.mp sends⟩
      exact ⟨u, rfl, List.count_eq_zero.mp (same.trans unfinished), receive, send, opens,
        nothing.1, nothing.2, receiveWaits, sendWaits⟩
  · have done := done_of_mem sound member
    have both := done
    simp only [Session.isDone, Bool.and_eq_true] at both
    exact ⟨both.1, both.2, sound.still done⟩

theorem finishes_still_lastSend : ∃ s, Session.Reaches
    { defaultConfiguration "127.0.0.1:1234" ⟨1, .iec, by decide⟩ with
      protocol := .udp, direction := .tx }
    (fun _ => 0) 0 (lastSend ++ [(0, .invoke (.onSend 0))]) s ∧ Still s := by
  refine Machine.exists_run (fun s => s.calls)
    (b := [.onFinish, .finishSend, .finishReceive]) rfl ?_
  intro s reach calls
  have finished := (finishes_still (accepted_iff.mpr (by decide)) reach).2.2.1
  exact (finished (by simp [calls])).2.2

end NetTester

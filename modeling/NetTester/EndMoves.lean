import NetTester.StepMoves

namespace NetTester

namespace Session

def isDone (s : Session) : Bool := s.isReceiveComplete && s.isSendComplete

end Session

/-- The session ends exactly when both sides have become complete. -/
inductive EndStep (s s' : Session) : Prop
  | still (view : s'.endView = s.endView) (done : s'.isDone = s.isDone)
  | finish (view : s'.endView = s.endView.finish) (before : s.isDone = false)
      (after : s'.isDone = true)

/-- What one event does to the waits on time and signals, and to the end of the session. Only the
lambda that is taken off the posts starts the timer. -/
inductive EndMove (s : Session) (e : Event) (s' : Session) : Prop
  | chain (step : EndStep s s') (posts : s'.posts = s.posts)
      (other : ∀ i, e ≠ .invoke (.posted i))
  | arm (duration : Int) (i : Nat) (p : Posted) (posted : s.posts[i]? = some p)
      (view : s'.endView = { s.endView with
        timeoutTimer := Operation.settle (some .operationAborted) s.timeoutTimer ++
          [Operation.initiate duration] })
      (done : s'.isDone = s.isDone)
      (estimate : Session.estimateTestDuration s.configuration = some duration)
      (event : e = .invoke (.posted i)) (posts : s'.posts = s.posts.eraseIdx i)
  | timedOut (i : Nat) (after : List (Operation Int (Option ErrorCode)))
      (event : e = .complete (.timedOut i))
      (completes : Operation.complete (fun _ => True) none s.timeoutTimer i = some after)
      (view : s'.endView = { s.endView with timeoutTimer := after }) (done : s'.isDone = s.isDone)
      (posts : s'.posts = s.posts)
  | timeout (i : Nat) (x : Int) (failure : Option ErrorCode)
      (after : List (Operation Int (Option ErrorCode)))
      (ready : Operation.dequeue s.timeoutTimer i = some (x, failure, after))
      (view : s'.endView = { s.endView with timeoutTimer := after }) (done : s'.isDone = s.isDone)
      (report : s'.report =
        if failure = none then s.report.abort (.tester .testTimeout) else s.report)
      (event : e = .invoke (.onTimeout i)) (posts : s'.posts = s.posts)
  | signalled (signal : Signal) (event : e = .complete (.signalled signal))
      (view : s'.endView = { s.endView with signals := Operation.settle (.ok signal) s.signals })
      (done : s'.isDone = s.isDone) (posts : s'.posts = s.posts)
  | signal (i : Nat) (r : Except ErrorCode Signal)
      (after : List (Operation Unit (Except ErrorCode Signal)))
      (ready : Operation.dequeue s.signals i = some ((), r, after))
      (view : s'.endView = { s.endView with signals := after }) (done : s'.isDone = s.isDone)
      (report : (∃ f, r = .error f ∧ s'.report = s.report) ∨
        ∃ n f, r = .ok n ∧ s'.report = s.report.abort f)
      (event : e = .invoke (.onSignal i)) (posts : s'.posts = s.posts)

namespace Session

variable (s : Session)

theorem isDone_of_views {u s : Session}
    (receive : u.receiveView.isComplete = s.receiveView.isComplete)
    (send : u.sendView.isComplete = s.sendView.isComplete) : u.isDone = s.isDone :=
  congrArg₂ (· && ·) receive send

theorem onReceiveComplete_end (incomplete : s.isReceiveComplete = false) :
    EndStep s s.onReceiveComplete := by
  have view := onReceiveComplete_endView s
  cases hc : s.isSendComplete with
  | true =>
    rw [if_pos hc] at view
    exact .finish view (by simp [isDone, incomplete])
      (by simp [isDone, onReceiveComplete, onFinish, close, hc])
  | false =>
    rw [if_neg (by simp [hc])] at view
    exact .still view (by simp [isDone, onReceiveComplete, hc])

theorem onSendComplete_end (incomplete : s.isSendComplete = false) :
    EndStep s s.onSendComplete := by
  have view := onSendComplete_endView s
  cases hc : s.isReceiveComplete with
  | true =>
    rw [if_pos hc] at view
    exact .finish view (by simp [isDone, incomplete])
      (by simp [isDone, onSendComplete, onFinish, close, hc])
  | false =>
    rw [if_neg (by simp [hc])] at view
    exact .still view (by simp [isDone, onSendComplete, hc])

end Session

namespace EndStep

variable {s u w : Session}

theorem after_still (h : EndStep u w) (view : u.endView = s.endView) (done : u.isDone = s.isDone) :
    EndStep s w := by
  cases h with
  | still v d => exact .still (v.trans view) (d.trans done)
  | finish v before after => exact .finish (v.trans (by rw [view])) (done.symm.trans before) after

end EndStep

namespace Session

variable (s : Session)

theorem asyncReceive_end (n : Nat) : EndStep s (s.asyncReceive n) := by
  refine .still (asyncReceive_endView s n) (isDone_of_views ?_ ?_)
  · rw [asyncReceive_receiveView, ReceiveView.ask]
    split <;> rfl
  · rw [asyncReceive_sendView]

theorem asyncSend_end (n : Nat) : EndStep s (s.asyncSend n) :=
  .still (asyncSend_endView s n)
    (asyncSend_induction (P := fun u => u.isDone = s.isDone) n fun _ _ _ _ => rfl)

theorem abort_end (f : ErrorCode) : EndStep s (s.abort f) := .still (abort_endView s f) rfl

theorem finishReceive_end (incomplete : s.isReceiveComplete = false) :
    EndStep s s.finishReceive := by
  unfold finishReceive
  cases s.configuration.protocol with
  | tcp =>
    simp only [TcpSession.finishReceive]
    split <;>
      exact .still (by simp [endView, startReceive, shutdownSend, stampReceive]) rfl
  | udp =>
    exact (onReceiveComplete_end s.stampReceive incomplete).after_still
      (by simp [endView, stampReceive]) rfl

theorem finishSend_end (incomplete : s.isSendComplete = false) : EndStep s s.finishSend := by
  unfold finishSend
  cases s.configuration.protocol with
  | tcp =>
    simp only [TcpSession.finishSend]
    split
    next =>
      exact (onSendComplete_end s.stampSend.shutdownSend incomplete).after_still
        (by simp [endView, shutdownSend, stampSend]) rfl
    next =>
      exact (onSendComplete_end s.stampSend incomplete).after_still
        (by simp [endView, stampSend]) rfl
  | udp =>
    exact (onSendComplete_end s.stampSend incomplete).after_still (by simp [endView, stampSend]) rfl

theorem onReceive_end (r : Except ErrorCode Nat) (n : Nat)
    (incomplete : s.isReceiveComplete = false) : EndStep s (s.onReceive r n) := by
  simp only [onReceive]
  split
  next => exact .still rfl rfl
  next => exact abort_end s _
  next => exact abort_end s _
  next k =>
    have endView : ((s.verify k).countReceived k).endView = s.endView := verify_endView s k
    have flag : ((s.verify k).countReceived k).isReceiveComplete = s.isReceiveComplete :=
      congrArg ReceiveView.isComplete (verify_receiveView s k)
    have done : ((s.verify k).countReceived k).isDone = s.isDone :=
      isDone_of_views flag (congrArg SendView.isComplete (verify_sendView s k))
    split
    next => exact (asyncReceive_end _ _).after_still endView done
    next => exact (finishReceive_end _ (flag.trans incomplete)).after_still endView done

theorem onEof_end (r : Except ErrorCode Nat) (incomplete : s.isReceiveComplete = false) :
    EndStep s (TcpSession.onEof r s) := by
  obtain ⟨u, policy, eq⟩ := TcpSession.onEof_cases r s
  have ⟨view, done, incomplete⟩ :
      u.endView = s.endView ∧ u.isDone = s.isDone ∧ u.isReceiveComplete = false := by
    obtain rfl | ⟨-, rfl⟩ := policy <;>
      exact ⟨by simp [endView, shutdownSend, call], rfl, incomplete⟩
  rw [eq]
  split
  next => exact (onReceiveComplete_end _ incomplete).after_still view done
  next => exact (abort_end _ _).after_still view done
  next => exact (abort_end _ _).after_still view done

theorem onSend_end (r : Except ErrorCode Nat) (c : SendCall)
    (incomplete : s.isSendComplete = false) : EndStep s (s.onSend r c) := by
  simp only [onSend]
  split
  next => exact .still rfl rfl
  next => exact abort_end s _
  next n =>
    split
    next => exact (asyncSend_end (s.countSent c.offset n) _).after_still rfl rfl
    next => exact (finishSend_end (s.countSent c.offset n) incomplete).after_still rfl rfl

/-- A transfer that has just started is not done: each direction uses one side at least. -/
theorem startTransfer_isDone (receives : s.receives = []) (sends : s.sends = [])
    (incomplete : s.isReceiveComplete = false) (sendIncomplete : s.isSendComplete = false) :
    s.startTransfer.isDone = false := by
  have receive := congrArg ReceiveView.isComplete (startTransfer_receiveView s receives incomplete)
  have send := congrArg SendView.isComplete (startTransfer_sendView s sends sendIncomplete)
  unfold isDone
  by_cases tx : s.configuration.direction = .tx
  · have idle : s.startTransfer.isSendComplete = false := by
      apply send.trans
      rw [if_neg (by rw [tx]; decide)]
      exact sendIncomplete
    rw [idle, Bool.and_false]
  · have idle : s.startTransfer.isReceiveComplete = false := by
      apply receive.trans
      rw [if_neg tx]
      exact incomplete
    rw [idle, Bool.false_and]

theorem startTransfer_end {s u : Session} (tidy : Tidy s)
    (unstarted : s.statistics.startDate = none) (view : u.sendView = s.sendView)
    (receiveView : u.receiveView = s.receiveView) :
    u.startTransfer.endView = u.endView ∧ u.startTransfer.isDone = s.isDone := by
  obtain ⟨receives, sends, incomplete, sendIncomplete⟩ := tidy.unstarted unstarted
  have receives' := (congrArg ReceiveView.receives receiveView).trans receives
  have sends' := (congrArg SendView.sends view).trans sends
  have incomplete' := (congrArg ReceiveView.isComplete receiveView).trans incomplete
  have sendIncomplete' := (congrArg SendView.isComplete view).trans sendIncomplete
  refine ⟨startTransfer_endView u receives' incomplete' sendIncomplete', ?_⟩
  rw [startTransfer_isDone u receives' sends' incomplete' sendIncomplete', isDone, incomplete,
    Bool.false_and]

theorem step_endMove {s s' : Session} {t : Nat} {e : Event} (tidy : Tidy s)
    (h : s.step (t, e) = some s') : EndMove s e s' := by
  have receiving : s.receives ≠ [] → s.isReceiveComplete = false := fun some =>
    Bool.eq_false_iff.mpr fun complete => some (tidy.receiveComplete complete)
  have sending : s.sends ≠ [] → s.isSendComplete = false := fun some =>
    Bool.eq_false_iff.mpr fun complete => some (tidy.sendComplete complete)
  cases step_cases tidy h with
  | timedOut i after completes => exact .timedOut i after rfl completes rfl rfl rfl
  | signalled n => exact .signalled n rfl rfl rfl rfl
  | connect i failure after ready =>
    let u : Session := { s with now := t, opens := after }
    obtain ⟨view, done⟩ := startTransfer_end (u := u) tidy
      (tidy.opens (Operation.ne_nil_of_dequeue ready)) rfl rfl
    exact .chain (.still view done) (congrArg Setting.posts (startTransfer_setting u)) (by simp)
  | startTimer i duration posted estimate =>
    exact .arm duration i _ posted rfl rfl estimate rfl rfl
  | startTimerAndTransfer i duration posted estimate =>
    let u : Session := { s with
      now := t
      posts := s.posts.eraseIdx i
      timeoutTimer := Operation.settle (some .operationAborted) s.timeoutTimer ++
        [Operation.initiate duration] }
    obtain ⟨view, done⟩ := startTransfer_end (u := u) tidy
      (tidy.posts (List.mem_of_getElem? posted)) rfl rfl
    exact .arm duration i _ posted view done estimate rfl
      (congrArg Setting.posts (startTransfer_setting u))
  | onReceive slice size r ready =>
    let u : Session := { s with now := t, receives := [] }
    have incomplete : u.isReceiveComplete = false := receiving (by simp [ready])
    exact .chain ((onReceive_end u r slice incomplete).after_still rfl rfl)
      (congrArg Setting.posts (onReceive_setting u r slice)) (by simp)
  | onEof size r ready =>
    let u : Session := { s with now := t, receives := [] }
    have incomplete : u.isReceiveComplete = false := receiving (by simp [ready])
    exact .chain ((onEof_end u r incomplete).after_still rfl rfl)
      (congrArg Setting.posts (onEof_setting u r)) (by simp)
  | onSend c r ready =>
    let u : Session := { s with now := t, sends := [] }
    have incomplete : u.isSendComplete = false := sending (by simp [ready])
    exact .chain ((onSend_end u r c incomplete).after_still rfl rfl)
      (congrArg Setting.posts (onSend_setting u r c)) (by simp)
  | receiveSlice x =>
    let throttle := { s.receiveThrottle with waits := [] }.startSlice t
    let u : Session := { s with now := t, receiveThrottle := throttle }
    exact .chain ((asyncReceive_end u _).after_still rfl rfl)
      (congrArg Setting.posts (asyncReceive_setting u _)) (by simp)
  | sendSlice x =>
    let throttle := { s.sendThrottle with waits := [] }.startSlice t
    let u : Session := { s with now := t, sendThrottle := throttle }
    exact .chain ((asyncSend_end u _).after_still rfl rfl)
      (congrArg Setting.posts (asyncSend_setting u _)) (by simp)
  | timeout i x after ready =>
    exact .timeout i x _ after ready (abort_endView _ _) rfl rfl rfl rfl
  | timeoutCancelled i x f after ready => exact .timeout i x _ after ready rfl rfl rfl rfl rfl
  | signal i n after ready =>
    exact .signal i _ after ready (abort_endView _ _) rfl (.inr ⟨_, _, rfl, rfl⟩) rfl rfl
  | signalCancelled i f after ready =>
    exact .signal i _ after ready rfl rfl (.inl ⟨f, rfl, rfl⟩) rfl rfl
  | opened | received | receiveFails | sent | sendFails | receiveExpires | sendExpires
  | receiveCancelled | sendCancelled => exact .chain (.still rfl rfl) rfl (by simp)

end Session

end NetTester

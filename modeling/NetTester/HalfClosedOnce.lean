import NetTester.FinalStatistics
import NetTester.PeerStream

namespace NetTester

def Call.isShutdownSend : Call → Bool
  | .shutdownSend _ _ => true
  | _ => false

/-- How often a session has half-closed its socket, and how often it has come to the points at which
a policy may have it do so. -/
structure Ends where
  isShutdown : Bool
  shutdowns : Nat
  finishReceives : Nat
  finishSends : Nat
  eofs : Nat
  complete : Bool

/-- One half-close if the condition holds. -/
def closing (p : Prop) [Decidable p] : Nat := if p then 1 else 0

/-- The ends after a half-close if the condition holds. -/
def Ends.close (v : Ends) (p : Prop) [Decidable p] : Ends :=
  { v with isShutdown := v.isShutdown || decide p, shutdowns := v.shutdowns + closing p }

section

variable (v : Ends) (p : Prop) [Decidable p]

@[simp] theorem Ends.close_isShutdown : (v.close p).isShutdown = (v.isShutdown || decide p) := rfl

@[simp] theorem Ends.close_shutdowns : (v.close p).shutdowns = v.shutdowns + closing p := rfl

@[simp] theorem Ends.close_finishReceives : (v.close p).finishReceives = v.finishReceives := rfl

@[simp] theorem Ends.close_finishSends : (v.close p).finishSends = v.finishSends := rfl

@[simp] theorem Ends.close_eofs : (v.close p).eofs = v.eofs := rfl

@[simp] theorem Ends.close_complete : (v.close p).complete = v.complete := rfl

/-- The socket is half-closed in the same step as the half-close is counted. -/
theorem Ends.close_closed (h : v.isShutdown = decide (v.shutdowns ≠ 0)) :
    (v.close p).isShutdown = decide ((v.close p).shutdowns ≠ 0) := by
  by_cases hp : p <;> simp [closing, hp, h]

end

theorem Ends.close_neg {v : Ends} {p : Prop} [Decidable p] (h : ¬p) : v.close p = v := by
  simp [close, closing, h]

theorem Ends.close_pos {v : Ends} {p : Prop} [Decidable p] (h : p) :
    v.close p = { v with isShutdown := true, shutdowns := v.shutdowns + 1 } := by
  simp [close, closing, h]

namespace Session

variable (s : Session)

def ends : Ends where
  isShutdown := s.isShutdown
  shutdowns := s.calls.countP Call.isShutdownSend
  finishReceives := s.calls.count .finishReceive
  finishSends := s.calls.count .finishSend
  eofs := s.calls.count .onEof
  complete := s.isReceiveComplete

@[simp] theorem abort_ends (f : ErrorCode) : (s.abort f).ends = s.ends := by
  simp [ends, abort, Call.isShutdownSend]

@[simp] theorem verify_ends (n : Nat) : (s.verify n).ends = s.ends :=
  verify_induction (P := fun u => u.ends = s.ends) rfl (fun u h => (abort_ends u _).trans h)

@[simp] theorem asyncReceive_ends (n : Nat) : (s.asyncReceive n).ends = s.ends := by
  rw [asyncReceive_eq, receiveSlice]
  split <;> rfl

@[simp] theorem asyncSend_ends (n : Nat) : (s.asyncSend n).ends = s.ends :=
  asyncSend_induction (P := fun u => u.ends = s.ends) n fun _ _ _ _ => rfl

theorem onReceiveComplete_ends : s.onReceiveComplete.ends =
    { s.ends with complete := true } := by
  simp only [onReceiveComplete]
  split <;> simp [ends, onFinish, close, Call.isShutdownSend]

@[simp] theorem onSendComplete_ends : s.onSendComplete.ends = s.ends := by
  simp only [onSendComplete]
  split <;> simp [ends, onFinish, close, Call.isShutdownSend]

theorem shutdownSend_ends : s.shutdownSend.ends =
    { s.ends with isShutdown := true, shutdowns := s.ends.shutdowns + 1 } := by
  simp [ends, shutdownSend, List.countP_cons, Call.isShutdownSend]

theorem stampReceive_ends :
    s.stampReceive.ends = { s.ends with finishReceives := s.ends.finishReceives + 1 } := by
  simp [ends, stampReceive, Call.isShutdownSend]

theorem stampSend_ends :
    s.stampSend.ends = { s.ends with finishSends := s.ends.finishSends + 1 } := by
  simp [ends, stampSend, Call.isShutdownSend]

/-- The end of the data completes a datagram session, and leaves a stream to be probed. -/
theorem finishReceive_ends : ∃ complete,
    (s.configuration.protocol = .tcp → complete = s.isReceiveComplete) ∧
      s.finishReceive.ends = { s.ends.close (s.configuration.protocol = .tcp ∧
          s.configuration.shutdownPolicy = .receiveComplete) with
        finishReceives := s.ends.finishReceives + 1
        complete := complete } := by
  unfold finishReceive
  cases hp : s.configuration.protocol with
  | tcp =>
    refine ⟨s.isReceiveComplete, fun _ => rfl, ?_⟩
    simp only [TcpSession.finishReceive, true_and]
    split
    next policy =>
      have policy : s.configuration.shutdownPolicy = .receiveComplete := policy
      refine (shutdownSend_ends s.stampReceive).trans ?_
      rw [stampReceive_ends, Ends.close_pos policy]
      rfl
    next policy =>
      have policy : s.configuration.shutdownPolicy ≠ .receiveComplete := policy
      refine (stampReceive_ends s).trans ?_
      rw [Ends.close_neg policy]
      rfl
  | udp =>
    refine ⟨true, by simp, (onReceiveComplete_ends s.stampReceive).trans ?_⟩
    rw [stampReceive_ends, Ends.close_neg (by simp)]

theorem finishSend_ends : s.finishSend.ends = { s.ends.close (s.configuration.protocol = .tcp ∧
      s.configuration.shutdownPolicy = .sendComplete) with
    finishSends := s.ends.finishSends + 1 } := by
  unfold finishSend
  cases hp : s.configuration.protocol with
  | tcp =>
    simp only [TcpSession.finishSend, true_and]
    split
    next policy =>
      have policy : s.configuration.shutdownPolicy = .sendComplete := policy
      refine (onSendComplete_ends s.stampSend.shutdownSend).trans ?_
      rw [shutdownSend_ends, stampSend_ends, Ends.close_pos policy]
    next policy =>
      have policy : s.configuration.shutdownPolicy ≠ .sendComplete := policy
      refine (onSendComplete_ends s.stampSend).trans ?_
      rw [stampSend_ends, Ends.close_neg policy]
  | udp =>
    refine (onSendComplete_ends s.stampSend).trans ?_
    rw [stampSend_ends, Ends.close_neg (by simp)]

theorem onEof_ends (r : Except ErrorCode Nat) : ∃ complete,
    (TcpSession.onEof r s).ends = { s.ends.close (s.configuration.shutdownPolicy = .waitForPeer)
      with
      eofs := s.ends.eofs + 1
      complete := complete } := by
  have noted : ∀ u, (u = if (s.call .onEof).configuration.shutdownPolicy = .waitForPeer then
      (s.call .onEof).shutdownSend else s.call .onEof) → u.ends =
        { s.ends.close (s.configuration.shutdownPolicy = .waitForPeer) with
          eofs := s.ends.eofs + 1 } := by
    have called : (s.call .onEof).ends = { s.ends with eofs := s.ends.eofs + 1 } := by
      simp [ends, call, Call.isShutdownSend]
    rintro u rfl
    split
    next policy =>
      have policy : s.configuration.shutdownPolicy = .waitForPeer := policy
      rw [shutdownSend_ends, called, Ends.close_pos policy]
    next policy =>
      have policy : s.configuration.shutdownPolicy ≠ .waitForPeer := policy
      rw [called, Ends.close_neg policy]
  simp only [TcpSession.onEof]
  generalize closed : (if (s.call .onEof).configuration.shutdownPolicy = .waitForPeer then
    (s.call .onEof).shutdownSend else s.call .onEof) = u
  have same := noted u closed.symm
  split
  next => exact ⟨_, by rw [onReceiveComplete_ends, same]⟩
  next => exact ⟨_, (abort_ends u _).trans same⟩
  next => exact ⟨_, (abort_ends u _).trans same⟩

theorem onEof_receives (r : Except ErrorCode Nat) (receives : s.receives = []) :
    (TcpSession.onEof r s).receives = [] := by
  obtain ⟨u, policy, eq⟩ := TcpSession.onEof_cases r s
  have same : u.receives = [] := by obtain rfl | ⟨-, rfl⟩ := policy <;> exact receives
  rw [eq]
  split
  next => exact congrArg ReceiveView.receives (onReceiveComplete_receiveView u same) |>.trans same
  next => exact same
  next => exact same

/-- What one handler does to the ends of a session, by the point it comes to. -/
inductive EndsMove (v : Ends) (s' : Session) : Prop
  | still (same : s'.ends = v)
  | finishReceive (complete : Bool)
      (stream : s.configuration.protocol = .tcp → complete = v.complete)
      (same : s'.ends = { v.close (s.configuration.protocol = .tcp ∧
          s.configuration.shutdownPolicy = .receiveComplete) with
        finishReceives := v.finishReceives + 1
        complete := complete })
  | finishSend (same : s'.ends = { v.close (s.configuration.protocol = .tcp ∧
        s.configuration.shutdownPolicy = .sendComplete) with
      finishSends := v.finishSends + 1 })
  | onEof (size : Nat) (r : Except ErrorCode Nat) (ready : s.receives = [⟨⟨.onEof, size⟩, some r⟩])
      (receives : s'.receives = []) (complete : Bool)
      (same : s'.ends = { v.close (s.configuration.shutdownPolicy = .waitForPeer) with
        eofs := v.eofs + 1
        complete := complete })

theorem EndsMove.congr {v : Ends} {s' w : Session} (h : s.EndsMove v s') (ends : w.ends = s'.ends)
    (receives : w.receives = s'.receives) : s.EndsMove v w := by
  cases h with
  | still same => exact .still (ends.trans same)
  | finishReceive complete stream same => exact .finishReceive complete stream (ends.trans same)
  | finishSend same => exact .finishSend (ends.trans same)
  | onEof size r ready none complete same =>
    exact .onEof size r ready (receives.trans none) complete (ends.trans same)

theorem onReceive_ends (r : Except ErrorCode Nat) (n : Nat) {u : Session}
    (configuration : u.configuration = s.configuration) :
    u.EndsMove s.ends (s.onReceive r n) := by
  simp only [onReceive]
  split
  next => exact .still rfl
  next => exact .still (abort_ends s _)
  next => exact .still (abort_ends s _)
  next k =>
    let v := (s.verify k).countReceived k
    have same : v.ends = s.ends := verify_ends s k
    have setting : v.configuration = u.configuration :=
      (congrArg Setting.configuration (verify_setting s k)).trans configuration.symm
    split
    next => exact .still ((asyncReceive_ends v _).trans same)
    next =>
      obtain ⟨complete, stream, finished⟩ := finishReceive_ends v
      rw [same, setting] at finished
      rw [setting] at stream
      exact .finishReceive complete (fun tcp => (stream tcp).trans (congrArg Ends.complete same))
        finished

theorem onSend_ends (r : Except ErrorCode Nat) (c : SendCall) {u : Session}
    (configuration : u.configuration = s.configuration) :
    u.EndsMove s.ends (s.onSend r c) := by
  simp only [onSend]
  split
  next => exact .still rfl
  next => exact .still (abort_ends s _)
  next n =>
    split
    next => exact .still (asyncSend_ends (s.countSent c.offset n) _)
    next =>
      have finished := finishSend_ends (s.countSent c.offset n)
      have setting : (s.countSent c.offset n).configuration = u.configuration :=
        configuration.symm
      rw [setting] at finished
      exact .finishSend finished

theorem startTransfer_ends {u : Session} (configuration : u.configuration = s.configuration) :
    u.EndsMove s.ends s.startTransfer := by
  let stamped : Session := { s with statistics := { s.statistics with startDate := some s.now } }
  have setting : stamped.startReceiving.configuration = u.configuration :=
    (congrArg Setting.configuration (startReceiving_setting stamped)).trans configuration.symm
  change u.EndsMove s.ends stamped.startReceiving.startSending
  unfold startSending
  split
  next rx =>
    -- An unused side finishes at once, and at most one side is unused.
    have receiving : stamped.startReceiving.ends = s.ends := by
      unfold startReceiving
      rw [if_neg]
      · exact asyncReceive_ends _ 0
      · rw [setting, configuration] at rx
        have rx : stamped.configuration.direction = .rx := rx
        simp [rx]
    have finished := finishSend_ends stamped.startReceiving
    rw [setting, receiving] at finished
    exact .finishSend finished
  next =>
    have receiving : u.EndsMove s.ends stamped.startReceiving := by
      unfold startReceiving
      split
      next =>
        obtain ⟨complete, stream, finished⟩ := finishReceive_ends stamped
        have setting : stamped.configuration = u.configuration := configuration.symm
        rw [setting] at stream finished
        exact .finishReceive complete stream finished
      next => exact .still (asyncReceive_ends _ 0)
    exact receiving.congr u (asyncSend_ends _ 0)
      (congrArg ReceiveView.receives (asyncSend_receiveView _ 0))

theorem step_ends {s s' : Session} {t : Nat} {e : Event} (tidy : Tidy s)
    (h : s.step (t, e) = some s') : s.EndsMove s.ends s' := by
  cases step_cases tidy h with
  | connect i failure after => exact startTransfer_ends { s with now := t, opens := after } rfl
  | startTimerAndTransfer i duration =>
    exact startTransfer_ends { s with
      now := t
      posts := s.posts.eraseIdx i
      timeoutTimer := Operation.settle (some .operationAborted) s.timeoutTimer ++
        [Operation.initiate duration] } rfl
  | onReceive slice size r =>
    exact onReceive_ends { s with now := t, receives := [] } r slice rfl
  | onEof size r ready =>
    let u : Session := { s with now := t, receives := [] }
    obtain ⟨complete, same⟩ := onEof_ends u r
    exact .onEof size r ready (onEof_receives u r rfl) complete same
  | onSend c r => exact onSend_ends { s with now := t, sends := [] } r c rfl
  | receiveSlice => exact .still (asyncReceive_ends _ _)
  | sendSlice => exact .still (asyncSend_ends _ _)
  | timeout i x after => exact .still (abort_ends { s with now := t, timeoutTimer := after } _)
  | signal i n after => exact .still (abort_ends { s with now := t, signals := after } _)
  | opened | received | receiveFails | sent | sendFails | receiveExpires | sendExpires | timedOut
  | signalled | startTimer | receiveCancelled | sendCancelled | timeoutCancelled
  | signalCancelled => exact .still rfl

end Session

/-- The half-closes that the policy of a session calls for by now. A datagram session has none. -/
def Session.due (s : Session) : Nat :=
  match s.configuration.protocol, s.configuration.shutdownPolicy with
  | .udp, _ => 0
  | .tcp, .sendComplete => s.ends.finishSends
  | .tcp, .receiveComplete => s.ends.finishReceives
  | .tcp, .waitForPeer => s.ends.eofs

/-- The account of the half-closes: as many as the policy calls for, each for a point that the
session comes to once. -/
structure HalfCloses (s : Session) : Prop where
  closed : s.isShutdown = decide (s.ends.shutdowns ≠ 0)
  balance : s.ends.shutdowns = s.due
  finishReceives : s.ends.finishReceives ≤ 1
  finishSends : s.ends.finishSends ≤ 1
  eofs : s.ends.eofs = 0 ∨ s.ends.eofs = 1 ∧ s.statistics.startDate ≠ none ∧ s.receives = [] ∧
    s.receiveThrottle.waits = []
  complete : s.configuration.protocol = .tcp → s.isReceiveComplete = true → s.ends.eofs = 1

namespace HalfCloses

variable {s s' : Session} {t : Nat} {e : Event}

/-- A chain that has been told the end of its stream takes no step of its own. -/
theorem receive_still (sound : Sound s) (hs : s.step (t, e) = some s')
    (date : s.statistics.startDate ≠ none) (receives : s.receives = [])
    (waits : s.receiveThrottle.waits = []) : s'.receiveView = s.receiveView := by
  cases Session.step_receiveMove sound.tidy hs with
  | still view => exact view
  | start unstarted => exact absurd unstarted date
  | startUnused unstarted => exact absurd unstarted date
  | expire x pending => simp [waits] at pending
  | slice x ready => simp [waits] at ready
  | cancelled x f ready => simp [waits] at ready
  | fill i data c event pending => simp [receives] at pending
  | fail i f c event pending => simp [receives] at pending
  | resume slice size n ready => simp [receives] at ready
  | finish slice size n ready => simp [receives] at ready
  | aborted c ready => simp [receives] at ready
  | stop c r f ready => simp [receives] at ready
  | eof size ready => simp [receives] at ready

/-- A probe for the end of the stream that has its result keeps it until it is handled, and then the
chain has nothing outstanding. -/
theorem probe_step (sound : Sound s) (hs : s.step (t, e) = some s') {size : Nat}
    {r : Except ErrorCode Nat} (ready : s.receives = [⟨⟨.onEof, size⟩, some r⟩]) :
    s'.receiveView = s.receiveView ∨ ∃ complete,
      s'.receiveView = { s.receiveView with receives := [], isComplete := complete } := by
  have waiting : s.receiveThrottle.waits = [] := (sound.receive.probe ready).waits
  have started : s.statistics.startDate ≠ none := by
    intro unstarted
    simp [(sound.tidy.unstarted unstarted).1] at ready
  cases Session.step_receiveMove sound.tidy hs with
  | still view => exact .inl view
  | start unstarted => exact absurd unstarted started
  | startUnused unstarted => exact absurd unstarted started
  | expire x pending => simp [waiting] at pending
  | slice x waits => simp [waiting] at waits
  | cancelled x f waits => simp [waiting] at waits
  | fill i data c event pending => simp [ready] at pending
  | fail i f c event pending => simp [ready] at pending
  | resume slice size n other => simp [ready] at other
  | finish slice size n other => simp [ready] at other
  | aborted c failed => exact absurd (sound.receive_system failed) (by decide)
  | stop c r f _ bad view => exact .inr ⟨s.isReceiveComplete, view⟩
  | eof size _ view => exact .inr ⟨true, view⟩

theorem probe_handled (sound : Sound s) (hs : s.step (t, e) = some s') {size : Nat}
    {r : Except ErrorCode Nat} (ready : s.receives = [⟨⟨.onEof, size⟩, some r⟩]) :
    s'.statistics.startDate ≠ none ∧ s'.receiveThrottle.waits = [] := by
  have started : s.statistics.startDate ≠ none := by
    intro unstarted
    simp [(sound.tidy.unstarted unstarted).1] at ready
  have kept : s'.statistics.startDate = s.statistics.startDate ∧
      s'.receiveThrottle = s.receiveThrottle := by
    rcases probe_step sound hs ready with view | ⟨complete, view⟩
    · exact ⟨congrArg ReceiveView.startDate view, congrArg ReceiveView.throttle view⟩
    · exact ⟨congrArg ReceiveView.startDate view, congrArg ReceiveView.throttle view⟩
  rw [kept.1, kept.2]
  exact ⟨started, (sound.receive.probe ready).waits⟩

theorem step (h : HalfCloses s) (sound : Sound s) (hs : s.step (t, e) = some s') :
    HalfCloses s' := by
  have configuration := (Session.step_frame sound.tidy hs).configuration
  have move := Session.step_ends sound.tidy hs
  have closed : s'.ends.isShutdown = decide (s'.ends.shutdowns ≠ 0) := by
    have before : s.ends.isShutdown = decide (s.ends.shutdowns ≠ 0) := h.closed
    cases move with
    | still same => rw [same, before]
    | finishReceive complete stream same => rw [same]; exact Ends.close_closed _ _ before
    | finishSend same => rw [same]; exact Ends.close_closed _ _ before
    | onEof size r ready receives complete same => rw [same]; exact Ends.close_closed _ _ before
  have balance : s'.ends.shutdowns = s'.due := by
    have before := h.balance
    unfold Session.due at before ⊢
    rw [configuration]
    cases hp : s.configuration.protocol with
    | udp =>
      simp only [hp] at before ⊢
      cases move with
      | still same => rw [same, before]
      | finishReceive complete stream same => simp [same, before, closing, hp]
      | finishSend same => simp [same, before, closing, hp]
      | onEof size r ready =>
        exact absurd ((sound.receive.probe ready).stream.symm.trans hp) (by decide)
    | tcp =>
      cases policy : s.configuration.shutdownPolicy <;> simp only [hp, policy] at before ⊢ <;>
        cases move <;> simp_all [closing]
  have receiveOnce : s'.ends.finishReceives ≤ 1 := by
    have final := sound.receive_final hs
    have once := h.finishReceives
    by_cases finished : s.ends.finishReceives = 0
    · cases move <;> simp_all
    · have same : s'.ends.finishReceives = s.ends.finishReceives := (final finished).1
      omega
  have sendOnce : s'.ends.finishSends ≤ 1 := by
    have final := sound.send_final hs
    have once := h.finishSends
    by_cases finished : s.ends.finishSends = 0
    · cases move <;> simp_all
    · have same : s'.ends.finishSends = s.ends.finishSends := (final finished).1
      omega
  have flag : s.configuration.protocol = .tcp → s'.isReceiveComplete = true →
      s'.ends.eofs = s.ends.eofs → s.isReceiveComplete = true := by
    intro tcp complete same
    have after : s'.ends.complete = true := complete
    cases move with
    | still eq => exact (congrArg Ends.complete eq).symm.trans after
    | finishReceive flag stream eq =>
      have stream : flag = s.isReceiveComplete := stream tcp
      rw [eq] at after
      exact stream.symm.trans after
    | finishSend eq => exact (congrArg Ends.complete eq).symm.trans after
    | onEof size r ready receives flag eq => simp [eq] at same
  rcases h.eofs with zero | ⟨one, date, receives, waits⟩
  · by_cases same : s'.ends.eofs = s.ends.eofs
    · refine ⟨closed, balance, receiveOnce, sendOnce, .inl (same.trans zero), ?_⟩
      intro tcp complete
      rw [configuration] at tcp
      exact absurd (h.complete tcp (flag tcp complete same)) (by simp [zero])
    · cases move with
      | still eq => simp [eq] at same
      | finishReceive flag stream eq => simp [eq] at same
      | finishSend eq => simp [eq] at same
      | onEof size r ready receives flag eq =>
        have one : s'.ends.eofs = 1 := by simp [eq, zero]
        obtain ⟨date, waits⟩ := probe_handled sound hs ready
        exact ⟨closed, balance, receiveOnce, sendOnce, .inr ⟨one, date, receives, waits⟩,
          fun _ _ => one⟩
  · have view := receive_still sound hs date receives waits
    have same : s'.ends.eofs = 1 := by
      cases move with
      | still eq => simp [eq, one]
      | finishReceive flag stream eq => simp [eq, one]
      | finishSend eq => simp [eq, one]
      | onEof size r ready => simp [receives] at ready
    refine ⟨closed, balance, receiveOnce, sendOnce, .inr ⟨same, ?_, ?_, ?_⟩, fun _ _ => same⟩
    · have started : s'.statistics.startDate = s.statistics.startDate :=
        congrArg ReceiveView.startDate view
      rwa [started]
    · exact (congrArg ReceiveView.receives view).trans receives
    · exact (congrArg (fun v => v.throttle.waits) view).trans waits

theorem create (c : SessionConfiguration) (draws : Nat → Nat) (now : Nat) :
    HalfCloses (.create c draws now) where
  closed := rfl
  balance := by
    unfold Session.due
    split <;> rfl
  finishReceives := Nat.zero_le 1
  finishSends := Nat.zero_le 1
  eofs := .inl rfl
  complete := by simp [Session.create]

theorem of_reaches {c : SessionConfiguration} (accepted : Accepted c) {draws : Nat → Nat}
    {now : Nat} {events : List (Nat × Event)} (reach : Session.Reaches c draws now events s) :
    HalfCloses s := by
  refine Machine.run_induction (fun _ => HalfCloses) (create c draws now) ?_ reach
  rintro events s ⟨t, e⟩ s' reach h hs
  exact h.step (Sound.of_reaches accepted reach).1 hs

end HalfCloses

theorem ReceiveChain.finished {c : SessionConfiguration} {now : Nat} {failed : Prop}
    {v : ReceiveView} (h : ReceiveChain c now failed v) (complete : v.isComplete = true) :
    v.finishes = 1 := by
  cases h <;> simp_all

theorem SendChain.finished {c : SessionConfiguration} {draws : Nat → Nat} {now : Nat}
    {failed : Prop} {v : SendView} (h : SendChain c draws now failed v)
    (complete : v.isComplete = true) : v.finishes = 1 := by
  cases h <;> simp_all

/-- A stream session half-closes at most once whatever its policy is, and exactly once by the time
it closes its socket; a datagram session never does. -/
theorem half_closes_once {c : SessionConfiguration} (accepted : Accepted c) {draws : Nat → Nat}
    {now : Nat} {events : List (Nat × Event)} {s : Session}
    (reach : Session.Reaches c draws now events s) :
    s.calls.countP Call.isShutdownSend ≤ 1 ∧
      (Call.onFinish ∈ s.calls →
        s.calls.countP Call.isShutdownSend = if c.protocol = .tcp then 1 else 0) ∧
      (c.protocol = .udp → s.calls.countP Call.isShutdownSend = 0) := by
  obtain ⟨sound, rfl, _⟩ := Sound.of_reaches accepted reach
  have h := HalfCloses.of_reaches accepted reach
  have balance : s.calls.countP Call.isShutdownSend = s.due := h.balance
  have receives := h.finishReceives
  have sends := h.finishSends
  rw [balance]
  refine ⟨?_, fun finished => ?_, fun udp => by simp [Session.due, udp]⟩
  · have eofs : s.ends.eofs ≤ 1 := by
      rcases h.eofs with zero | ⟨one, _⟩ <;> omega
    unfold Session.due
    split <;> omega
  · have done : s.isDone = true := by
      by_contra undone
      have count := sound.ending.finishes
      rw [if_neg undone] at count
      exact absurd finished (List.count_eq_zero.mp count)
    simp only [Session.isDone, Bool.and_eq_true] at done
    have received : s.ends.finishReceives = 1 := sound.receive.finished done.1
    have sent : s.ends.finishSends = 1 := sound.send.finished done.2
    unfold Session.due
    cases hp : s.configuration.protocol with
    | udp => rfl
    | tcp =>
      have ended := h.complete hp done.1
      cases policy : s.configuration.shutdownPolicy <;> simp [received, sent, ended]

/-- A stream session that connects, sends its only byte and finds the end of its stream. -/
def sendStream : List (Nat × Event) :=
  [(0, .complete (.opened 0 none)), (0, .invoke (.onConnect 0)), (0, .complete (.sendSlice 0)),
    (0, .invoke (.sendThrottle 0)), (0, .complete (.sent 0 (.ok 1))), (0, .invoke (.onSend 0)),
    (0, .complete (.received 0 (.error .eof))), (0, .invoke (.onReceive 0))]

theorem half_closes_once_sendStream : ∃ s, Session.Reaches
    { defaultConfiguration "127.0.0.1:1234" ⟨1, .iec, by decide⟩ with direction := .tx }
    (fun _ => 0) 0 sendStream s ∧ s.calls.countP Call.isShutdownSend = 1 := by
  refine Machine.exists_run (fun s => decide (Call.onFinish ∈ s.calls)) (b := true)
    (by decide +kernel) ?_
  intro s reach finished
  exact (half_closes_once (accepted_iff.mpr (by decide)) reach).2.1 (of_decide_eq_true finished)

end NetTester

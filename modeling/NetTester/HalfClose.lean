import NetTester.Sound

namespace NetTester

/-- Where each policy lets a session half-close: the call it directly follows, and what has been
transferred by then. -/
def ShutdownAllowed (c : SessionConfiguration) (sent received : Nat) (before : List Call) : Prop :=
  match c.shutdownPolicy with
  | .sendComplete => before.head? = some .finishSend ∧ sent = c.size.value
  | .receiveComplete => before.head? = some .finishReceive ∧ c.size.value ≤ received
  | .waitForPeer => before.head? = some .onEof ∧ (c.direction = .tx ∨ c.size.value ≤ received)

/-- The half-closes of a session are those that its policy allows, and none is missing where the
policy ties it to the end of the send chain. -/
structure HalfClose (s : Session) : Prop where
  allowed : ∀ sent received before, Call.shutdownSend sent received :: before <:+ s.calls →
    ShutdownAllowed s.configuration sent received before
  sendComplete : s.configuration.protocol = .tcp → s.configuration.shutdownPolicy = .sendComplete →
    s.isShutdown = decide (s.calls.count .finishSend ≠ 0)

namespace HalfClose

variable {s s' : Session}

theorem congr (h : HalfClose s) (calls : s'.calls = s.calls)
    (shutdown : s'.isShutdown = s.isShutdown)
    (configuration : s'.configuration = s.configuration) : HalfClose s' := by
  refine ⟨?_, ?_⟩
  · rw [calls, configuration]
    exact h.allowed
  · rw [calls, shutdown, configuration]
    exact h.sendComplete

/-- Calls other than these two leave the account as it is. -/
theorem call (h : HalfClose s) (x : Call) (other : ∀ a b, x ≠ .shutdownSend a b)
    (unfinished : x ≠ .finishSend) : HalfClose (s.call x) := by
  refine ⟨fun a b before suffix => ?_, fun tcp policy => ?_⟩
  · rcases List.suffix_cons_iff.mp suffix with eq | suffix
    · exact absurd (List.cons.inj eq).1.symm (other a b)
    · exact h.allowed a b before suffix
  · have count : (s.call x).calls.count .finishSend = s.calls.count .finishSend :=
      List.count_cons_of_ne unfinished
    rw [count]
    exact h.sendComplete tcp policy

theorem abort (h : HalfClose s) (f : ErrorCode) : HalfClose (s.abort f) :=
  (h.call (.abort f) (by simp) (by simp)).congr rfl rfl rfl

theorem verify (h : HalfClose s) (n : Nat) : HalfClose (s.verify n) :=
  Session.verify_induction h fun _ h => h.abort _

theorem asyncReceive (h : HalfClose s) (n : Nat) : HalfClose (s.asyncReceive n) := by
  rw [Session.asyncReceive_eq, Session.receiveSlice]
  split
  next => exact h.congr rfl rfl rfl
  next => exact h.congr rfl rfl rfl

theorem asyncSend (h : HalfClose s) (n : Nat) : HalfClose (s.asyncSend n) :=
  Session.asyncSend_induction n fun _ _ _ _ => h.congr rfl rfl rfl

theorem onFinish (h : HalfClose s) : HalfClose s.onFinish :=
  (h.call .onFinish (by simp) (by simp)).congr rfl rfl rfl

theorem onReceiveComplete (h : HalfClose s) : HalfClose s.onReceiveComplete := by
  have flagged : HalfClose { s with isReceiveComplete := true } := h.congr rfl rfl rfl
  simp only [Session.onReceiveComplete]
  split
  next => exact flagged.onFinish
  next => exact flagged

theorem onSendComplete (h : HalfClose s) : HalfClose s.onSendComplete := by
  have flagged : HalfClose { s with isSendComplete := true } := h.congr rfl rfl rfl
  simp only [Session.onSendComplete]
  split
  next => exact flagged.onFinish
  next => exact flagged

theorem stampReceive (h : HalfClose s) : HalfClose s.stampReceive :=
  (h.call .finishReceive (by simp) (by simp)).congr rfl rfl rfl

/-- A half-close that is due keeps the entries that its policy allows. -/
theorem allowed_shutdownSend
    (allowed : ∀ sent received before, Call.shutdownSend sent received :: before <:+ s.calls →
      ShutdownAllowed s.configuration sent received before)
    (due : ShutdownAllowed s.configuration s.statistics.sentBytesCount.value
      s.statistics.receivedBytesCount.value s.calls) :
    ∀ sent received before, Call.shutdownSend sent received :: before <:+ s.shutdownSend.calls →
      ShutdownAllowed s.configuration sent received before := by
  intro a b before suffix
  rcases List.suffix_cons_iff.mp suffix with eq | suffix
  · simp only [List.cons.injEq, Call.shutdownSend.injEq] at eq
    obtain ⟨⟨rfl, rfl⟩, rfl⟩ := eq
    exact due
  · exact allowed a b before suffix

theorem finishReceive (h : HalfClose s)
    (full : s.configuration.shutdownPolicy = .receiveComplete →
      s.configuration.size.value ≤ s.statistics.receivedBytesCount.value) :
    HalfClose s.finishReceive := by
  have stamped := h.stampReceive
  unfold Session.finishReceive
  split
  next =>
    simp only [TcpSession.finishReceive]
    split
    next policy =>
      have due : ShutdownAllowed s.configuration s.statistics.sentBytesCount.value
          s.statistics.receivedBytesCount.value s.stampReceive.calls := by
        have policy : s.configuration.shutdownPolicy = .receiveComplete := policy
        unfold ShutdownAllowed
        rw [policy]
        exact ⟨rfl, full policy⟩
      refine ⟨allowed_shutdownSend stamped.allowed due, fun _ sendComplete => ?_⟩
      exact absurd (policy.symm.trans sendComplete) (by decide)
    next => exact stamped.congr rfl rfl rfl
  next => exact stamped.onReceiveComplete

theorem finishSend (h : HalfClose s)
    (full : s.configuration.shutdownPolicy = .sendComplete →
      s.statistics.sentBytesCount.value = s.configuration.size.value) :
    HalfClose s.finishSend := by
  have allowed : ∀ sent received before,
      Call.shutdownSend sent received :: before <:+ s.stampSend.calls →
        ShutdownAllowed s.configuration sent received before := by
    intro a b before suffix
    rcases List.suffix_cons_iff.mp suffix with eq | suffix
    · simp at eq
    · exact h.allowed a b before suffix
  unfold Session.finishSend
  split
  next =>
    simp only [TcpSession.finishSend]
    split
    next policy =>
      have due : ShutdownAllowed s.configuration s.statistics.sentBytesCount.value
          s.statistics.receivedBytesCount.value s.stampSend.calls := by
        have policy : s.configuration.shutdownPolicy = .sendComplete := policy
        unfold ShutdownAllowed
        rw [policy]
        exact ⟨rfl, full policy⟩
      have closed : HalfClose s.stampSend.shutdownSend :=
        ⟨allowed_shutdownSend allowed due, fun _ _ => by
          simp [Session.shutdownSend, Session.stampSend]⟩
      exact closed.onSendComplete
    next policy =>
      have open' : HalfClose s.stampSend :=
        ⟨allowed, fun _ sendComplete => absurd sendComplete policy⟩
      exact open'.onSendComplete
  next udp =>
    have open' : HalfClose s.stampSend :=
      ⟨allowed, fun tcp _ => absurd (udp.symm.trans tcp) (by decide)⟩
    exact open'.onSendComplete

theorem onEof (h : HalfClose s) (r : Except ErrorCode Nat)
    (ended : s.configuration.direction = .tx ∨
      s.configuration.size.value ≤ s.statistics.receivedBytesCount.value) :
    HalfClose (TcpSession.onEof r s) := by
  have noted := h.call .onEof (by simp) (by simp)
  obtain ⟨u, policy, eq⟩ := TcpSession.onEof_cases r s
  have closed : HalfClose u := by
    obtain rfl | ⟨policy, rfl⟩ := policy
    · exact noted
    · have due : ShutdownAllowed s.configuration s.statistics.sentBytesCount.value
          s.statistics.receivedBytesCount.value (s.call .onEof).calls := by
        unfold ShutdownAllowed
        rw [policy]
        exact ⟨rfl, ended⟩
      refine ⟨allowed_shutdownSend noted.allowed due, fun _ sendComplete => ?_⟩
      exact absurd (policy.symm.trans sendComplete) (by decide)
  rw [eq]
  split
  next => exact closed.onReceiveComplete
  next => exact closed.abort _
  next => exact closed.abort _

theorem onReceive (h : HalfClose s) (r : Except ErrorCode Nat) (n : Nat) :
    HalfClose (s.onReceive r n) := by
  simp only [Session.onReceive]
  split
  next => exact h
  next => exact h.abort _
  next => exact h.abort _
  next k =>
    have counted : HalfClose ((s.verify k).countReceived k) := (h.verify k).congr rfl rfl rfl
    split
    next => exact counted.asyncReceive _
    next full => exact counted.finishReceive fun _ => Nat.le_of_not_lt full

theorem onSend (h : HalfClose s) (r : Except ErrorCode Nat) (call : SendCall)
    (within : ∀ n, r = .ok n →
      (s.statistics.sentBytesCount.add n).value ≤ s.configuration.size.value) :
    HalfClose (s.onSend r call) := by
  simp only [Session.onSend]
  split
  next => exact h
  next => exact h.abort _
  next n =>
    have counted : HalfClose (s.countSent call.offset n) := h.congr rfl rfl rfl
    split
    next => exact counted.asyncSend _
    next full =>
      exact counted.finishSend fun _ => Nat.le_antisymm (within n rfl) (Nat.le_of_not_lt full)

/-- The checks on direction and policy keep the unused side from half-closing. -/
theorem startTransfer (h : HalfClose s)
    (tx : s.configuration.direction = .tx → s.configuration.shutdownPolicy ≠ .receiveComplete)
    (rx : s.configuration.direction = .rx → s.configuration.shutdownPolicy ≠ .sendComplete) :
    HalfClose s.startTransfer := by
  let stamped : Session := { s with statistics := { s.statistics with startDate := some s.now } }
  have receiving : HalfClose stamped.startReceiving := by
    unfold Session.startReceiving
    split
    next unused =>
      exact (h.congr rfl rfl rfl : HalfClose stamped).finishReceive
        fun policy => absurd policy (tx unused)
    next =>
    refine HalfClose.asyncReceive ?_ 0
    exact h.congr rfl rfl rfl
  have setting : stamped.startReceiving.setting = s.setting :=
    Session.startReceiving_setting stamped
  have configuration : stamped.startReceiving.configuration = s.configuration :=
    congrArg Setting.configuration setting
  change HalfClose stamped.startReceiving.startSending
  unfold Session.startSending
  split
  next unused =>
    rw [configuration] at unused
    refine receiving.finishSend fun policy => ?_
    rw [configuration] at policy
    exact absurd policy (rx unused)
  next =>
    refine HalfClose.asyncSend ?_ 0
    exact receiving.congr rfl rfl rfl

theorem step {t : Nat} {e : Event} (h : HalfClose s) (sound : Sound s)
    (accepted : Accepted s.configuration) (hs : s.step (t, e) = some s') : HalfClose s' := by
  obtain ⟨_, _, tx, rx⟩ := accepted_iff.mp accepted
  have starts : ∀ u : Session, u.calls = s.calls → u.isShutdown = s.isShutdown →
      u.configuration = s.configuration → HalfClose u.startTransfer := by
    intro u calls shutdown configuration
    refine (h.congr calls shutdown configuration).startTransfer ?_ ?_
    · intro direction policy
      rw [configuration] at direction policy
      exact tx ⟨direction, policy⟩
    · intro direction policy
      rw [configuration] at direction policy
      exact rx ⟨direction, policy⟩
  cases Session.step_cases sound.tidy hs with
  | connect => exact starts _ rfl rfl rfl
  | startTimerAndTransfer => exact starts _ rfl rfl rfl
  | onReceive slice size r =>
    have same : HalfClose { s with now := t, receives := [] } := h.congr rfl rfl rfl
    exact same.onReceive r slice
  | onEof size r ready =>
    have same : HalfClose { s with now := t, receives := [] } := h.congr rfl rfl rfl
    apply same.onEof r
    rcases (sound.receive.probe ready).ended with ⟨unused, _⟩ | ⟨_, full, _⟩
    · exact .inl unused
    · exact .inr full
  | onSend call r ready =>
    have same : HalfClose { s with now := t, sends := [] } := h.congr rfl rfl rfl
    have sending := sound.send.slice ready
    obtain ⟨start, budget⟩ := sending.budget
    refine same.onSend r call fun n hn => ?_
    have fits := sending.fits n (by rw [hn])
    have count := (budget.count sending.offer fits []).1
    have within := budget.budget
    have inSlice := sending.offer.inSlice
    have sum : (s.statistics.sentBytesCount.add n).value = s.sendView.sent.value + n := count
    change (s.statistics.sentBytesCount.add n).value ≤ s.configuration.size.value
    omega
  | receiveSlice =>
    refine HalfClose.asyncReceive ?_ _
    exact h.congr rfl rfl rfl
  | sendSlice =>
    refine HalfClose.asyncSend ?_ _
    exact h.congr rfl rfl rfl
  | timeout =>
    refine HalfClose.abort ?_ _
    exact h.congr rfl rfl rfl
  | signal =>
    refine HalfClose.abort ?_ _
    exact h.congr rfl rfl rfl
  | opened | received | receiveFails | sent | sendFails | receiveExpires | sendExpires | timedOut
  | signalled | startTimer | receiveCancelled | sendCancelled | timeoutCancelled
  | signalCancelled => exact h.congr rfl rfl rfl

theorem create (c : SessionConfiguration) (draws : Nat → Nat) (now : Nat) :
    HalfClose (.create c draws now) := by
  refine ⟨fun a b before suffix => ?_, fun _ _ => rfl⟩
  have := List.suffix_nil.mp suffix
  simp at this

theorem of_reaches {c : SessionConfiguration} (accepted : Accepted c) {draws : Nat → Nat}
    {now : Nat} {events : List (Nat × Event)} (reach : Session.Reaches c draws now events s) :
    HalfClose s := by
  refine (Machine.run_invariant (fun s => (Sound s ∧ s.configuration = c) ∧ HalfClose s) ?_
    ⟨⟨.create accepted draws now, rfl⟩, create c draws now⟩ reach).2
  rintro s ⟨t, e⟩ s' ⟨⟨sound, rfl⟩, h⟩ hs
  exact ⟨⟨sound.step hs, (Session.step_frame sound.tidy hs).configuration⟩,
    h.step sound accepted hs⟩

end HalfClose

/-- A stream session half-closes only where its policy allows it: at the end of its send chain under
`send_complete`, at the end of its receive chain under `receive_complete`, and in its handler for
the end of the peer's stream under `wait_for_peer`. -/
theorem half_closes_allowed {c : SessionConfiguration} (accepted : Accepted c)
    {draws : Nat → Nat} {now : Nat} {events : List (Nat × Event)} {s : Session}
    (reach : Session.Reaches c draws now events s) (sent received : Nat) (before : List Call)
    (called : Call.shutdownSend sent received :: before <:+ s.calls) :
    match c.shutdownPolicy with
    | .sendComplete => before.head? = some .finishSend ∧ sent = c.size.value
    | .receiveComplete => before.head? = some .finishReceive ∧ c.size.value ≤ received
    | .waitForPeer => before.head? = some .onEof ∧
        (c.direction = .tx ∨ c.size.value ≤ received) := by
  obtain ⟨_, rfl, _⟩ := Sound.of_reaches accepted reach
  exact (HalfClose.of_reaches accepted reach).allowed sent received before called

/-- A byte that is received before one is sent. -/
def receiveFirst : List (Nat × Event) :=
  [(0, .complete (.opened 0 none)), (0, .invoke (.onConnect 0)), (0, .complete (.receiveSlice 0)),
    (0, .invoke (.receiveThrottle 0)), (0, .complete (.received 0 (.ok [0]))),
    (0, .invoke (.onReceive 0))]

theorem half_closes_allowed_receiveFirst : ∃ s, Session.Reaches
    { defaultConfiguration "127.0.0.1:1234" ⟨1, .iec, by decide⟩ with
      shutdownPolicy := .receiveComplete }
    (fun _ => 0) 0 receiveFirst s ∧ ∃ sent received before,
      Call.shutdownSend sent received :: before <:+ s.calls ∧ 1 ≤ received := by
  refine Machine.exists_run (fun s => s.calls) (b := [.shutdownSend 0 1, .finishReceive])
    (by decide +kernel) ?_
  intro s reach calls
  have called : Call.shutdownSend 0 1 :: [.finishReceive] <:+ s.calls := calls ▸ List.suffix_rfl
  exact ⟨0, 1, _, called,
    (half_closes_allowed (accepted_iff.mpr (by decide)) reach 0 1 _ called).2⟩

/-- Under `receive_complete` the half-close does not wait for the bytes still to be sent. -/
theorem half_close_before_sent : ¬∀ (c : SessionConfiguration) (_ : Accepted c)
    (_ : c.protocol = .tcp) (_ : c.direction ≠ .rx) (draws : Nat → Nat) (now : Nat)
    (events : List (Nat × Event)) (s : Session) (_ : Session.Reaches c draws now events s)
    (sent received : Nat), Call.shutdownSend sent received ∈ s.calls → sent = c.size.value := by
  intro claim
  obtain ⟨s, reach, called⟩ : ∃ s, Session.Reaches
      { defaultConfiguration "127.0.0.1:1234" ⟨1, .iec, by decide⟩ with
        shutdownPolicy := .receiveComplete }
      (fun _ => 0) 0 receiveFirst s ∧ Call.shutdownSend 0 1 ∈ s.calls := by
    refine Machine.exists_run (fun s => s.calls) (b := [.shutdownSend 0 1, .finishReceive])
      (by decide +kernel) ?_
    intro s reach calls
    simp [calls]
  have all := claim _ (accepted_iff.mpr (by decide)) rfl (by decide) _ _ _ s reach 0 1 called
  exact absurd all (by decide)

end NetTester

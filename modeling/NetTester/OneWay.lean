import NetTester.CalmPair

namespace NetTester

section

variable {s : Session}

/-- A receive chain that is started and can do nothing by itself is complete, or waits for data. -/
theorem receive_resting (sound : Sound s) (alive : s.assertionFailed = false)
    (clear : s.failure = none) (started : s.statistics.startDate ≠ none)
    (expire : ¬s.Enabled (.complete (.receiveSlice 0)))
    (fire : ¬s.Enabled (.invoke (.receiveThrottle 0)))
    (run : ¬s.Enabled (.invoke (.onReceive 0))) :
    (s.isReceiveComplete = true ∧ s.receives = []) ∨
      ∃ call, s.receives = [⟨call, none⟩] ∧ call.bufferSize ≠ 0 := by
  have waits := Session.receiveWaits_eq_nil alive sound.tidy.receiveWaits expire fire
  have positive : bufferSize ≠ 0 := by decide
  cases sound.receive with
  | unstarted date => exact absurd date started
  | waiting start total r budget used short receives pending =>
    have pending : s.receiveThrottle.waits = _ := pending
    simp [waits] at pending
  | receiving start total slice r budget used short nonzero bounded receives =>
    obtain rfl := Session.receives_pending alive run receives
    exact .inr ⟨_, receives, by simp only; omega⟩
  | probing r ended stream receives =>
    obtain rfl := Session.receives_pending alive run receives
    exact .inr ⟨_, receives, by decide⟩
  | complete ended receives waits complete => exact .inl ⟨complete, receives⟩
  | stopped failure => exact absurd clear failure

/-- A send chain that is started and can do nothing by itself is complete, or waits for room. -/
theorem send_resting (sound : Sound s) (alive : s.assertionFailed = false)
    (clear : s.failure = none) (started : s.statistics.startDate ≠ none)
    (expire : ¬s.Enabled (.complete (.sendSlice 0)))
    (fire : ¬s.Enabled (.invoke (.sendThrottle 0)))
    (run : ¬s.Enabled (.invoke (.onSend 0))) :
    s.isSendComplete = true ∨ ∃ call, s.sends = [⟨call, none⟩] ∧
      (s.configuration.protocol = .tcp → call.size ≠ 0) := by
  have waits := Session.sendWaits_eq_nil alive sound.tidy.sendWaits expire fire
  cases sound.send with
  | unstarted date => exact absurd date started
  | unused direction date sent accepted sends waits complete => exact .inl complete
  | waiting start r budget used short sends pending =>
    have pending : s.sendThrottle.waits = _ := pending
    simp [waits] at pending
  | sending start call r budget offer used sends =>
    have sends : s.sends = _ := sends
    obtain rfl := Session.sends_pending alive run sends
    exact .inr ⟨call, sends, offer.stream⟩
  | complete start budget used full sends waits complete => exact .inl complete
  | stopped start remaining cause =>
    rcases cause with failure | failed
    · exact absurd clear failure
    · have failed : s.assertionFailed = true := failed
      simp [alive] at failed

/-- A stream session half-closes as soon as it comes to the point its policy names. -/
theorem HalfCloses.shutdown_of_due (h : HalfCloses s) (tcp : s.configuration.protocol = .tcp)
    (due : (s.configuration.shutdownPolicy = .sendComplete ∧ s.sendView.finishes ≠ 0) ∨
      (s.configuration.shutdownPolicy = .receiveComplete ∧ s.receiveView.finishes ≠ 0)) :
    s.isShutdown = true := by
  rw [h.closed, decide_eq_true_eq, h.balance]
  unfold Session.due
  rw [tcp]
  rcases due with ⟨policy, finished⟩ | ⟨policy, finished⟩
  · rw [policy]
    exact finished
  · rw [policy]
    exact finished

end

namespace StreamPair

namespace Calm

variable {c : Side → SessionConfiguration} {flow : Flow} {p p' : StreamPair} {x : Side} {t : Nat}
  {e : Event}

theorem alive (h : Calm c p) (paired : Paired c) (x : Side) :
    (p.session x).assertionFailed = false := by
  refine (h.truthful.sound x).send.alive fun udp => ?_
  rw [h.truthful.configuration x, paired.tcp x] at udp
  cases udp

theorem started (h : Calm c p) (paired : Paired c) (halted : Halted flow p) (x : Side) :
    (p.session x).statistics.startDate ≠ none := by
  have sound := h.truthful.sound x
  have opens := Session.opens_eq_nil (h.alive paired x) sound.tidy.connects
    (halted.disabled rfl) (halted.disabled trivial)
  cases sound.opening with
  | connecting tcp date r pending => simp [opens] at pending
  | connected tcp date => exact date
  | posted udp =>
    rw [h.truthful.configuration x, paired.tcp x] at udp
    cases udp
  | started udp date => exact date

/-- When nothing can happen, no byte is on its way, and the receive chain has found the end of its
stream or waits for it. -/
theorem receive_halted (h : Calm c p) (paired : Paired c) (halted : Halted flow p) (x : Side) :
    p.channel x = [] ∧ ((p.session x).isReceiveComplete = true ∧ (p.session x).receives = [] ∨
      ∃ call, (p.session x).receives = [⟨call, none⟩]) := by
  have alive := h.alive paired x
  rcases receive_resting (h.truthful.sound x) alive (h.clear x) (h.started paired halted x)
    (halted.disabled trivial) (halted.disabled trivial) (halted.disabled trivial) with
    ⟨complete, receives⟩ | ⟨call, pending, room⟩
  · exact ⟨(h.ended x (.inr complete)).1, .inl ⟨complete, receives⟩⟩
  · refine ⟨?_, .inr ⟨call, pending⟩⟩
    by_contra unread
    obtain ⟨b, rest, channel⟩ := List.exists_cons_of_ne_nil unread
    have permitted : Permitted flow p x (.complete (.received 0 (.ok [b]))) :=
      ⟨rest, channel.symm⟩
    exact halted.disabled permitted (Session.enabled_delivery alive pending (by simp)
      (by simp only [List.length_singleton]; omega))

theorem send_halted (h : Calm c p) (paired : Paired c)
    (spent : ∀ x, Gone (p.session x) → Spent (p.session x)) (halted : Halted flow p) (x : Side) :
    (p.session x).isSendComplete = true := by
  have alive := h.alive paired x
  have sound := h.truthful.sound x
  have tcp : (p.session x).configuration.protocol = .tcp :=
    h.truthful.configuration x ▸ paired.tcp x
  rcases send_resting sound alive (h.clear x) (h.started paired halted x)
    (halted.disabled trivial) (halted.disabled trivial) (halted.disabled trivial) with
    complete | ⟨call, pending, positive⟩
  · exact complete
  · have permitted : Permitted flow p x (.complete (.sent 0 (.ok 1))) := by
      refine ⟨by decide, ?_, ?_⟩
      · by_contra shutdown
        have gone : Gone (p.session x) := .inl (by simpa using shutdown)
        exact (spent x gone).not_pending sound call pending
      · rw [(h.receive_halted paired halted x.other).1]
        exact flow.empty
    exact absurd (Session.enabled_sent alive pending (Nat.one_le_iff_ne_zero.mpr (positive tcp)))
      (halted.disabled permitted)

theorem sent_halted (h : Calm c p) (paired : Paired c)
    (spent : ∀ x, Gone (p.session x) → Spent (p.session x)) (halted : Halted flow p)
    (used : (c x).direction ≠ .rx) :
    (p.session x).statistics.sentBytesCount.value = (c x).size.value ∧
      (p.session x).acceptedBySocket.length = (c x).size.value := by
  have own := h.truthful.configuration x
  have complete := h.send_halted paired spent halted x
  obtain ⟨sent, all⟩ := Ceased.acceptedBySocket (.inr complete) (h.truthful.sound x) (own ▸ used)
  rw [own] at sent all
  exact ⟨sent, by rw [all, pattern_length]⟩

theorem received_halted (h : Calm c p) (paired : Paired c)
    (spent : ∀ x, Gone (p.session x) → Spent (p.session x)) (halted : Halted flow p)
    (used : (c x).direction ≠ .tx) :
    (p.session x).statistics.receivedBytesCount.value = (c x).size.value := by
  obtain ⟨delivered, counted, delivery, split⟩ := h.heard x
  obtain ⟨none, receives⟩ := h.receive_halted paired halted x
  have sends : (c x.other).direction ≠ .rx := fun unused => used ((paired.roles x).mpr unused)
  have whole := (h.sent_halted paired spent halted sends).2
  have counter : (p.session x).statistics.receivedBytesCount.value = counted % 2 ^ 64 :=
    delivery.counter
  have idle : delivered.length = counted := by
    apply delivery.idle
    rcases receives with ⟨_, receives⟩ | ⟨call, receives⟩ <;> simp [Session.receiveView, receives]
  have bounded := (c x).size.bounded
  have size := paired.size x
  rw [split, none, List.append_nil] at whole
  omega

/-- A side whose peer is gone finds the end of its stream. -/
theorem complete_of_gone (h : Calm c p) (paired : Paired c) (halted : Halted flow p)
    (gone : Gone (p.session x.other)) : (p.session x).isReceiveComplete = true := by
  obtain ⟨none, ⟨complete, _⟩ | ⟨call, pending⟩⟩ := h.receive_halted paired halted x
  · exact complete
  have permitted : Permitted flow p x (.complete (.received 0 (.error .eof))) := by
    simp only [Permitted, if_true]
    exact ⟨none, gone⟩
  exact absurd (Session.enabled_eof (h.alive paired x) pending) (halted.disabled permitted)

/-- Once one side is gone both finish: the other one closes on the end of its stream, and the first
one on that close. -/
theorem done_of_gone (h : Calm c p) (paired : Paired c)
    (spent : ∀ x, Gone (p.session x) → Spent (p.session x)) (halted : Halted flow p)
    (gone : Gone (p.session x)) (y : Side) : (p.session y).isDone = true := by
  have finish : ∀ z, (p.session z).isReceiveComplete = true → (p.session z).isDone = true := by
    intro z complete
    simp [Session.isDone, complete, h.send_halted paired spent halted z]
  have peer : (p.session x.other).isDone = true :=
    finish _ (h.complete_of_gone paired halted (x.other_other.symm ▸ gone))
  have closed : (p.session x.other).isOpen = false := by
    rw [(h.truthful.sound x.other).ending.isOpen, peer]
    rfl
  revert y
  exact Side.forall_of x (finish x (h.complete_of_gone paired halted (.inr closed))) peer

/-- The end of the whole transfer lets some side go, unless both sides wait for the other one. -/
theorem gone_halted (h : Calm c p) (paired : Paired c)
    (spent : ∀ x, Gone (p.session x) → Spent (p.session x)) (halted : Halted flow p)
    (sends : (c x).direction = .tx) (policy : ¬∀ z, (c z).shutdownPolicy = .waitForPeer) :
    ∃ y, Gone (p.session y) := by
  have own := h.truthful.configuration
  have tcp : ∀ y, (p.session y).configuration.protocol = .tcp := fun y => own y ▸ paired.tcp y
  obtain ⟨_, _, noReceive, _⟩ := accepted_iff.mp (paired.accepted x)
  obtain ⟨_, _, _, noSend⟩ := accepted_iff.mp (paired.accepted x.other)
  have receives := (paired.roles x).mp sends
  by_cases sender : (c x).shutdownPolicy = .sendComplete
  · have finished := (h.truthful.sound x).send.finished (h.send_halted paired spent halted x)
    refine ⟨x, .inl ((h.halfCloses x).shutdown_of_due (tcp x) (.inl ⟨?_, ?_⟩))⟩
    · rw [own, sender]
    · rw [finished]
      decide
  have waits : (c x).shutdownPolicy = .waitForPeer := by
    cases hp : (c x).shutdownPolicy with
    | sendComplete => exact absurd hp sender
    | receiveComplete => exact absurd ⟨sends, hp⟩ noReceive
    | waitForPeer => rfl
  have receiver : (c x.other).shutdownPolicy = .receiveComplete := by
    cases hp : (c x.other).shutdownPolicy with
    | sendComplete => exact absurd ⟨receives, hp⟩ noSend
    | receiveComplete => rfl
    | waitForPeer => exact absurd (Side.forall_of x waits hp) policy
  -- The receiver has counted everything, so that it is past its last slice.
  have used : (c x.other).direction ≠ .tx := by simp [receives]
  have full := h.received_halted paired spent halted used
  have finished : (p.session x.other).receiveView.finishes ≠ 0 := by
    have short : ¬(p.session x.other).receiveView.received.value <
        (p.session x.other).configuration.size.value := by
      rw [own]
      exact full.not_lt
    cases (h.truthful.sound x.other).receive with
    | unstarted date => exact absurd date (h.started paired halted x.other)
    | waiting start total r budget used below => exact absurd below short
    | receiving start total slice r budget used below => exact absurd below short
    | probing r ended stream receives waits live incomplete finished => simp [finished]
    | complete ended receives waits complete finished => simp [finished]
    | stopped failed => exact absurd (h.clear x.other) failed
  exact ⟨x.other, .inl ((h.halfCloses x.other).shutdown_of_due (tcp x.other)
    (.inr ⟨by rw [own, receiver], finished⟩))⟩

theorem of_run_oneWay (paired : Paired c) (sends : (c x).direction = .tx)
    {draws : Side → Nat → Nat} {now : Side → Nat} {events : List (Side × Nat × Event)}
    (reach : Machine.run (StreamPair.step flow) (.create c draws now) events = some p) :
    Calm c p :=
  Machine.run_invariant (Calm c)
    (fun _ _ _ h hp => h.step paired (h.spent_of_gone paired sends) hp)
    (create paired.accepted draws now) reach

theorem no_abort (h : Calm c p) (x : Side) (failure : ErrorCode) :
    Call.abort failure ∉ (p.session x).calls := by
  intro called
  have member : failure ∈ (p.session x).aborts := List.mem_filterMap.mpr ⟨_, called, rfl⟩
  have none := (h.truthful.sound x).ending.failure
  rw [h.clear x] at none
  rw [List.head?_eq_none_iff.mp none.symm] at member
  simp at member

/-- A side that waits for its peer is not gone before it has found the end of its stream. -/
theorem not_gone (h : Calm c p) (paired : Paired c) (waits : (c x).shutdownPolicy = .waitForPeer)
    (unended : ¬AtEnd (p.session x)) : ¬Gone (p.session x) := by
  have own := h.truthful.configuration x
  have tcp : (p.session x).configuration.protocol = .tcp := own ▸ paired.tcp x
  rintro (shutdown | closed)
  · rcases (h.halfCloses x).due_of_shutdown tcp shutdown with
      ⟨policy, _⟩ | ⟨policy, _⟩ | ⟨_, handled⟩
    · rw [own, waits] at policy
      cases policy
    · rw [own, waits] at policy
      cases policy
    · exact unended (.inr (h.complete_of_eofs handled))
  · exact unended (h.atEnd_of_closed closed)

/-- Two sides that wait for each other never find the end of a stream. -/
theorem of_run_waiting (paired : Paired c) (waits : ∀ x, (c x).shutdownPolicy = .waitForPeer)
    {draws : Side → Nat → Nat} {now : Side → Nat} {events : List (Side × Nat × Event)}
    (reach : Machine.run (StreamPair.step flow) (.create c draws now) events = some p) :
    Calm c p ∧ ∀ x, ¬AtEnd (p.session x) := by
  refine Machine.run_invariant (fun p => Calm c p ∧ ∀ x, ¬AtEnd (p.session x)) ?_
    ⟨create paired.accepted draws now, by simp [AtEnd, StreamPair.create, Session.create]⟩ reach
  rintro p ⟨x, t, e⟩ p' ⟨h, unended⟩ hp
  have stays : ∀ x, ¬Gone (p.session x) := fun x => h.not_gone paired (waits x) (unended x)
  refine ⟨h.step paired (fun x gone => absurd gone (stays x)) hp, ?_⟩
  obtain ⟨permitted, hs, peer, _⟩ := step_eq_some hp
  refine Side.forall_of x (fun ended => ?_) (peer ▸ unended x.other)
  have tcp : (p.session x).configuration.protocol = .tcp :=
    h.truthful.configuration x ▸ paired.tcp x
  by_cases event : ∃ i, e = .complete (.received i (.error .eof))
  · obtain ⟨i, rfl⟩ := event
    simp only [Permitted, if_true] at permitted
    exact stays x.other permitted.2
  · exact unended x (ended.of_step (h.truthful.sound x) tcp hs fun i eq => event ⟨i, eq⟩)

end Calm

end StreamPair

/-- A one-way stream test that nothing disturbs never aborts, whatever the two policies are. It
comes to rest with every byte sent and received, and then both sides have finished unless each was
to wait for the other one. -/
theorem one_way_finishes_iff {c : Side → SessionConfiguration} (accepted : ∀ x, Accepted (c x))
    (tcp : ∀ x, (c x).protocol = .tcp) (size : ∀ x, (c x.other).size.value = (c x).size.value)
    {x : Side} (sends : (c x).direction = .tx) (receives : (c x.other).direction = .rx)
    {flow : Flow} {draws : Side → Nat → Nat} {now : Side → Nat}
    {events : List (Side × Nat × Event)} {p : StreamPair}
    (reach : Machine.run (StreamPair.step flow) (.create c draws now) events = some p) :
    (∀ y failure, Call.abort failure ∉ (p.session y).calls) ∧
      ((∀ event, p.step flow event = none) →
        (p.session x).statistics.sentBytesCount.value = (c x).size.value ∧
        (p.session x.other).statistics.receivedBytesCount.value = (c x).size.value ∧
        ∀ y, Call.onFinish ∈ (p.session y).calls ↔ ¬∀ z, (c z).shutdownPolicy = .waitForPeer) := by
  have roles : ∀ y, (c y).direction = .tx ↔ (c y.other).direction = .rx :=
    Side.forall_of x (by simp [sends, receives]) (by simp [sends, receives])
  have paired : Paired c := ⟨accepted, tcp, size, roles⟩
  have h := StreamPair.Calm.of_run_oneWay paired sends reach
  have spent := h.spent_of_gone paired sends
  refine ⟨h.no_abort, fun halted => ⟨?_, ?_, fun y => ?_⟩⟩
  · exact (h.sent_halted paired spent halted (by simp [sends])).1
  · rw [← size x]
    exact h.received_halted paired spent halted (by simp [receives])
  · rw [(h.truthful.sound y).onFinish_iff]
    constructor
    · intro done waits
      have stuck := (StreamPair.Calm.of_run_waiting paired waits reach).2 y
      simp only [Session.isDone, Bool.and_eq_true] at done
      exact stuck (.inr done.1)
    · intro policy
      obtain ⟨z, gone⟩ := h.gone_halted paired spent halted sends policy
      exact h.done_of_gone paired spent halted gone y

/-- The events of a side that connects and sends a byte, and of one that receives it. -/
def oneWaySide : Side → List (Nat × Event)
  | .left => [(0, .complete (.opened 0 none)), (0, .invoke (.posted 0)),
      (0, .invoke (.onConnect 0)),
      (0, .complete (.sendSlice 0)), (0, .invoke (.sendThrottle 0)),
      (0, .complete (.sent 0 (.ok 1))), (0, .invoke (.onSend 0))]
  | .right => [(0, .complete (.opened 0 none)), (0, .invoke (.posted 0)),
      (0, .invoke (.onConnect 0)),
      (0, .complete (.receiveSlice 0)), (0, .invoke (.receiveThrottle 0)),
      (0, .complete (.received 0 (.ok [0]))), (0, .invoke (.onReceive 0))]

/-- The events of a side that finds the end of its stream and finishes. -/
def endSide : List (Nat × Event) :=
  [(0, .complete (.received 0 (.error .eof))), (0, .invoke (.onReceive 0)),
    (0, .invoke (.onTimeout 0)), (0, .invoke (.onSignal 0))]

/-- A sender that waits for its peer, and a receiver with a policy of its own. -/
def oneWay (policy : ShutdownPolicy) (x : Side) : SessionConfiguration :=
  { defaultConfiguration "127.0.0.1:1234" ⟨1, .iec, one_bounded⟩ with
    direction := if x = .left then .tx else .rx
    shutdownPolicy := if x = .left then .waitForPeer else policy }

theorem one_way_finishes_waiting : ∃ p, Machine.run (StreamPair.step ⟨fun _ _ => true, rfl⟩)
    (.create (oneWay .receiveComplete) (fun _ _ => 0) (fun _ => 0))
    ((oneWaySide .left).map (Prod.mk .left) ++ (oneWaySide .right).map (Prod.mk .right) ++
      endSide.map (Prod.mk .left) ++ endSide.map (Prod.mk .right)) = some p ∧
    ∀ y, Call.onFinish ∈ (p.session y).calls := by
  refine Machine.exists_run (fun p => ((p.session .left).isIdle, (p.session .right).isIdle))
    (b := (true, true)) (by decide +kernel) ?_
  intro p reach observed
  obtain ⟨left, right⟩ := Prod.mk.inj observed
  have idle : ∀ x, (p.session x).isIdle = true := Side.forall_of .left left right
  have finishes := (one_way_finishes_iff (x := .left)
    (Side.forall_of .left (accepted_iff.mpr (by decide)) (accepted_iff.mpr (by decide)))
    (fun _ => rfl) (fun _ => rfl) rfl rfl reach).2 (StreamPair.halted_of_idle idle)
  exact fun y => (finishes.2.2 y).mpr fun waits => absurd (waits .right) (by decide)

/-- Two stream sessions that are both to wait for their peer never half-close and never finish: they
stop with the whole transfer done, and only a timer or a signal ends them. -/
theorem mutual_wait {c : Side → SessionConfiguration} (accepted : ∀ x, Accepted (c x))
    (tcp : ∀ x, (c x).protocol = .tcp) (size : ∀ x, (c x.other).size.value = (c x).size.value)
    (roles : ∀ x, (c x).direction = .tx ↔ (c x.other).direction = .rx)
    (waits : ∀ x, (c x).shutdownPolicy = .waitForPeer) {flow : Flow} {draws : Side → Nat → Nat}
    {now : Side → Nat} {events : List (Side × Nat × Event)} {p : StreamPair}
    (reach : Machine.run (StreamPair.step flow) (.create c draws now) events = some p) (x : Side) :
    Call.onFinish ∉ (p.session x).calls ∧
      (p.session x).calls.countP Call.isShutdownSend = 0 ∧
      (∀ failure, Call.abort failure ∉ (p.session x).calls) ∧
      ((∀ event, p.step flow event = none) →
        ((c x).direction ≠ .rx →
          (p.session x).statistics.sentBytesCount.value = (c x).size.value) ∧
        ((c x).direction ≠ .tx →
          (p.session x).statistics.receivedBytesCount.value = (c x).size.value)) := by
  have paired : Paired c := ⟨accepted, tcp, size, roles⟩
  obtain ⟨h, unended⟩ := StreamPair.Calm.of_run_waiting paired waits reach
  have stays : ∀ y, ¬Gone (p.session y) := fun y => h.not_gone paired (waits y) (unended y)
  have spent : ∀ y, Gone (p.session y) → Spent (p.session y) := fun y gone =>
    absurd gone (stays y)
  refine ⟨fun finished => ?_, ?_, h.no_abort x, fun halted => ⟨fun used => ?_, fun used => ?_⟩⟩
  · have done := (h.truthful.sound x).onFinish_iff.mp finished
    simp only [Session.isDone, Bool.and_eq_true] at done
    exact unended x (.inr done.1)
  · by_contra shutdown
    refine stays x (.inl ?_)
    rw [(h.halfCloses x).closed, decide_eq_true_eq]
    exact shutdown
  · exact (h.sent_halted paired spent halted used).1
  · exact h.received_halted paired spent halted used

theorem mutual_wait_one : ∃ p, Machine.run (StreamPair.step ⟨fun _ _ => true, rfl⟩)
    (.create (oneWay .waitForPeer) (fun _ _ => 0) (fun _ => 0))
    ((oneWaySide .left).map (Prod.mk .left) ++ (oneWaySide .right).map (Prod.mk .right)) = some p ∧
    (p.session .right).statistics.receivedBytesCount.value = 1 ∧
    ∀ x, Call.onFinish ∉ (p.session x).calls := by
  refine Machine.exists_run (fun p => (p.session .right).statistics.receivedBytesCount.value)
    (b := 1) (by decide +kernel) ?_
  intro p reach received
  have waiting := mutual_wait
    (Side.forall_of .left (accepted_iff.mpr (by decide)) (accepted_iff.mpr (by decide)))
    (fun _ => rfl) (fun _ => rfl) (Side.forall_of .left (by decide) (by decide))
    (Side.forall_of .left rfl rfl) reach
  exact ⟨received, fun x => (waiting x).1⟩

end NetTester

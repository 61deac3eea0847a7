import NetTester.DatagramLoss
import NetTester.Exchange

namespace NetTester

/-- The part of each side in a test, by its direction and size. -/
def plan (c : Side → SessionConfiguration) : Plan Side where
  peer := Side.other
  toSend := fun x => if (c x).direction = .rx then 0 else (c x).size.value
  toCount := fun x => if (c x).direction = .tx then 0 else (c x).size.value

/-- Two sessions as they are seen from the outside. -/
def exchange (session : Side → Session) : Exchange Side where
  sent := fun x => (session x).acceptedBySocket.length
  counted := fun x => (session x).statistics.receivedBytesCount.value
  isOver := fun x => (session x).isDone

section

variable {s s' : Session} {t : Nat} {e : Event}

/-- The counter only grows while it has room. -/
theorem received_mono (sound : Sound s) (hs : s.step (t, e) = some s')
    (room : s.statistics.receivedBytesCount.value + s.heldBytes < 2 ^ 64) :
    s.statistics.receivedBytesCount.value ≤ s'.statistics.receivedBytesCount.value := by
  have kept : ∀ w : ReceiveView, s'.receiveView = w → w.received = s.statistics.receivedBytesCount →
      s.statistics.receivedBytesCount.value ≤ s'.statistics.receivedBytesCount.value := by
    rintro w rfl received
    exact Nat.le_of_eq (congrArg Size.value received).symm
  have counts : ∀ {call n}, s.receives = [⟨call, some (.ok n)⟩] → ∀ w : ReceiveView,
      s'.receiveView = w → w.received = s.statistics.receivedBytesCount.add n →
      s.statistics.receivedBytesCount.value ≤ s'.statistics.receivedBytesCount.value := by
    rintro call n ready w rfl received
    have held : s.heldBytes = n := by simp [Session.heldBytes, ready]
    have counter : s'.statistics.receivedBytesCount = s.statistics.receivedBytesCount.add n :=
      received
    rw [counter, Size.add_value_of_lt (by omega)]
    exact Nat.le_add_right _ _
  cases Session.step_receiveMove sound.tidy hs with
  | still view => exact kept _ view rfl
  | start unstarted used view => exact kept _ view (ReceiveView.ask_received _)
  | startUnused unstarted unused view => exact kept _ view (ReceiveView.finish_received _)
  | expire x waits due view => exact kept _ view rfl
  | slice x waits view => exact kept _ view (ReceiveView.ask_received _)
  | cancelled x f waits =>
    have result := (sound.receive.wait waits).result
    simp at result
  | fill i data call event pending fits stream view => exact kept _ view rfl
  | fail i f call event pending failed view => exact kept _ view rfl
  | resume slice size n ready short view => exact counts ready _ view (ReceiveView.ask_received _)
  | finish slice size n ready full view => exact counts ready _ view (ReceiveView.finish_received _)
  | aborted call ready => exact absurd (sound.receive_system ready) (by decide)
  | stop call r f ready bad view => exact kept _ view rfl
  | eof size ready view => exact kept _ view rfl

/-- A session that is done has no operation on its socket, and neither count changes any more. -/
theorem done_still (sound : Sound s) (hs : s.step (t, e) = some s') (done : s.isDone = true) :
    s'.acceptedBySocket = s.acceptedBySocket ∧
      s'.statistics.receivedBytesCount = s.statistics.receivedBytesCount := by
  have done' := done
  simp only [Session.isDone, Bool.and_eq_true] at done'
  obtain ⟨receives, _, waits, _⟩ := sound.done done
  refine ⟨?_, ?_⟩
  · rw [acceptedBySocket_step sound hs, Ceased.push (.inr done'.2) sound, List.append_nil]
  · have started : s.statistics.startDate ≠ none := by
      intro unstarted
      simp [(sound.tidy.unstarted unstarted).2.2.1] at done'
    exact congrArg ReceiveView.received (HalfCloses.receive_still sound hs started receives waits)

/-- A session that is done has done its part of the plan. -/
theorem done_part {c : Side → SessionConfiguration} {x : Side} (sound : Sound s)
    (configuration : s.configuration = c x) (done : s.isDone = true) :
    s.acceptedBySocket.length = (plan c).toSend x ∧
      (plan c).toCount x ≤ s.statistics.receivedBytesCount.value := by
  simp only [Session.isDone, Bool.and_eq_true] at done
  refine ⟨?_, ?_⟩
  · simp only [plan]
    split
    next unused => rw [acceptedBySocket_unused sound (configuration ▸ unused)]; rfl
    next used =>
      rw [(Ceased.acceptedBySocket (.inr done.2) sound (configuration ▸ used)).2, pattern_length,
        configuration]
  · simp only [plan]
    split
    next => exact Nat.zero_le _
    next used => exact configuration ▸ sound.full_of_complete (configuration ▸ used) done.1

end

/-- Each event of a session advances the exchange, or changes nothing that is seen of it. -/
theorem exchange_advance {c : Side → SessionConfiguration} {session session' : Side → Session}
    {x : Side} {t : Nat} {e : Event} (configuration : (session x).configuration = c x)
    (sound : Sound (session x)) (hs : (session x).step (t, e) = some (session' x))
    (peer : session' x.other = session x.other)
    (room : (session x).statistics.receivedBytesCount.value + (session x).heldBytes < 2 ^ 64)
    (within : (session' x).statistics.receivedBytesCount.value ≤
      (session x.other).acceptedBySocket.length) :
    Exchange.Advance (plan c) (exchange session) (exchange session') x where
  others := fun y other => by
    obtain rfl : y = x.other := (x.eq_or_other y).resolve_left other
    simp [exchange, peer]
  still := fun done => by
    obtain ⟨accepted, received⟩ := done_still sound hs done
    exact ⟨congrArg List.length accepted, congrArg Size.value received, done_step sound hs done⟩
  sent_le := by
    have accepted := congrArg List.length (acceptedBySocket_step sound hs)
    rw [List.length_append] at accepted
    exact (Nat.le_add_right _ _).trans accepted.ge
  counted_le := received_mono sound hs room
  sends := by
    have sound' := sound.step hs
    have configuration' := (Session.step_frame sound.tidy hs).configuration.trans configuration
    change (session' x).acceptedBySocket.length ≤ _
    simp only [plan]
    split
    next unused => rw [acceptedBySocket_unused sound' (configuration' ▸ unused)]; rfl
    next => exact configuration' ▸ Spent.acceptedBySocket_le sound'
  counts := within
  ended := fun done =>
    done_part (sound.step hs)
      ((Session.step_frame sound.tidy hs).configuration.trans configuration) done

/-- What is seen of an event of a pair, by the side that it belongs to. -/
def StreamPair.deeds (p : StreamPair) (event : Side × Nat × Event) : List (Deed Side) :=
  match p.disturbedStep event with
  | some p' => (exchange p.session).deeds (exchange p'.session) event.1
  | none => []

/-- What is seen of a run of a pair, event by event. -/
def StreamPair.history (p : StreamPair) (events : List (Side × Nat × Event)) : List (Deed Side) :=
  Machine.collect StreamPair.disturbedStep StreamPair.deeds p events

/-- What is seen of an event on a network: nothing of a loss. -/
def DatagramNetwork.deeds (p : DatagramNetwork) (event : NetworkEvent) : List (Deed Side) :=
  match event, p.step event with
  | .session x _ _ _, some p' => (exchange p.session).deeds (exchange p'.session) x
  | _, _ => []

/-- What is seen of a run on a network, event by event. -/
def DatagramNetwork.history (p : DatagramNetwork) (events : List NetworkEvent) :
    List (Deed Side) :=
  Machine.collect DatagramNetwork.step DatagramNetwork.deeds p events

/-- What the outside view of two sessions at the end of a run says of their test. -/
theorem exchange_over {c : Side → SessionConfiguration} {session : Side → Session}
    (sound : ∀ x, Sound (session x)) {deeds : List (Deed Side)}
    (refined : Machine.run (Exchange.step (plan c)) Exchange.start deeds = some (exchange session))
    {x : Side} (matched : (plan c).toCount x = (plan c).toSend x.other)
    (finished : Call.onFinish ∈ (session x).calls) :
    (session x).statistics.receivedBytesCount.value = (plan c).toCount x ∧
      (session x.other).acceptedBySocket.length = (plan c).toSend x.other :=
  (Exchange.Fair.of_run refined).over_exact matched ((sound x).onFinish_iff.mp finished)

/-- Every run of two stream sessions of any configurations, however disturbed, is a run of an
exchange: what is seen of its events leads from the view of each of its states to the next. Where
each side is to count what the other is to send, one that finishes has counted it all. -/
theorem stream_refines_exchange {c : Side → SessionConfiguration} (accepted : ∀ x, Accepted (c x))
    (tcp : ∀ x, (c x).protocol = .tcp) {draws : Side → Nat → Nat} {now : Side → Nat}
    {events : List (Side × Nat × Event)} {p : StreamPair}
    (reach : Machine.run StreamPair.disturbedStep (.create c draws now) events = some p) :
    (∀ before after q, events = before ++ after →
      Machine.run StreamPair.disturbedStep (.create c draws now) before = some q →
      Machine.run (Exchange.step (plan c)) Exchange.start
          (StreamPair.history (.create c draws now) before) = some (exchange q.session) ∧
        StreamPair.history (.create c draws now) events =
          StreamPair.history (.create c draws now) before ++ q.history after) ∧
      ∀ x, (plan c).toCount x = (plan c).toSend x.other → Call.onFinish ∈ (p.session x).calls →
        (p.session x).statistics.receivedBytesCount.value = (plan c).toCount x ∧
        (p.session x.other).acceptedBySocket.length = (plan c).toSend x.other := by
  have refined : ∀ {before : List (Side × Nat × Event)} {q : StreamPair},
      Machine.run StreamPair.disturbedStep (.create c draws now) before = some q →
      Machine.run (Exchange.step (plan c)) Exchange.start
        (StreamPair.history (.create c draws now) before) = some (exchange q.session) := by
    refine Machine.run_collect (fun p : StreamPair => exchange p.session)
      (StreamPair.Truthful c) ?_ (.create accepted draws now)
    rintro p ⟨x, t, e⟩ p' h hp
    have h' := h.step tcp hp
    obtain ⟨_, hs, peer, _⟩ := StreamPair.disturbedStep_eq_some hp
    have before := h.counted_le x
    have after := h'.counted_le x
    have bound := Spent.acceptedBySocket_le (h.sound x.other)
    have size := (p.session x.other).configuration.size.bounded
    rw [peer] at after
    have advance : Exchange.Advance (plan c) (exchange p.session) (exchange p'.session) x :=
      exchange_advance (h.configuration x) (h.sound x) hs peer (by omega) (by omega)
    exact ⟨h', by simpa only [StreamPair.deeds, hp] using advance.run_deeds⟩
  refine ⟨?_, fun x matched finished => ?_⟩
  · rintro before after q rfl reach
    exact ⟨refined reach, Machine.collect_append reach⟩
  · have sound := (StreamPair.Truthful.of_run accepted tcp reach).sound
    exact exchange_over sound (refined reach) matched finished

/-- The sides of a one-way test, one after the other. -/
def oneWayRun : List (Side × Nat × Event) :=
  (oneWaySide .left).map (Prod.mk .left) ++ (oneWaySide .right).map (Prod.mk .right) ++
    endSide.map (Prod.mk .left) ++ endSide.map (Prod.mk .right)

theorem stream_refines_exchange_one : ∃ p, Machine.run StreamPair.disturbedStep
    (.create (oneWay .receiveComplete) (fun _ _ => 0) (fun _ => 0)) oneWayRun = some p ∧
    Machine.run (Exchange.step (plan (oneWay .receiveComplete))) Exchange.start
      (StreamPair.history (.create (oneWay .receiveComplete) (fun _ _ => 0) (fun _ => 0))
        oneWayRun) = some (exchange p.session) := by
  refine Machine.exists_run (fun p => (p.session .left).isIdle) (b := true) (by decide +kernel) ?_
  intro p reach _
  exact ((stream_refines_exchange
    (Side.forall_of .left (accepted_iff.mpr (by decide)) (accepted_iff.mpr (by decide)))
    (fun _ => rfl) reach).1 oneWayRun [] p (by simp) reach).1

/-- Every run of two datagram sessions on a network that loses and reorders is a run of an exchange,
too; where each side is to count what the other is to send, one that finishes has counted it
all. -/
theorem datagrams_refine_exchange {c : Side → SessionConfiguration}
    (accepted : ∀ x, Accepted (c x)) (udp : ∀ x, (c x).protocol = .udp)
    {draws : Side → Nat → Nat} {now : Side → Nat} {events : List NetworkEvent}
    {p : DatagramNetwork}
    (reach : Machine.run DatagramNetwork.step (.create c draws now) events = some p) :
    (∀ before after q, events = before ++ after →
      Machine.run DatagramNetwork.step (.create c draws now) before = some q →
      Machine.run (Exchange.step (plan c)) Exchange.start
          (DatagramNetwork.history (.create c draws now) before) = some (exchange q.session) ∧
        DatagramNetwork.history (.create c draws now) events =
          DatagramNetwork.history (.create c draws now) before ++ q.history after) ∧
      ∀ x, (plan c).toCount x = (plan c).toSend x.other → Call.onFinish ∈ (p.session x).calls →
        (p.session x).statistics.receivedBytesCount.value = (plan c).toCount x ∧
        (p.session x.other).acceptedBySocket.length = (plan c).toSend x.other := by
  have refined : ∀ {before : List NetworkEvent} {q : DatagramNetwork},
      Machine.run DatagramNetwork.step (.create c draws now) before = some q →
      Machine.run (Exchange.step (plan c)) Exchange.start
        (DatagramNetwork.history (.create c draws now) before) = some (exchange q.session) := by
    refine Machine.run_collect (fun p : DatagramNetwork => exchange p.session)
      (DatagramNetwork.Balanced c draws) ?_ (.create accepted now)
    intro p event p' h hp
    have h' := h.step udp hp
    refine ⟨h', ?_⟩
    have moved : ∀ {x t e}, (p.session x).step (t, e) = some (p'.session x) →
        p'.session x.other = p.session x.other →
        Exchange.Advance (plan c) (exchange p.session) (exchange p'.session) x := by
      intro x t e hs peer
      have before := h.sum x
      have after := h'.sum x
      have bound := Spent.acceptedBySocket_le (h.sound x.other)
      have size := (p.session x.other).configuration.size.bounded
      rw [peer] at after
      exact exchange_advance (h.configuration x) (h.sound x) hs peer (by omega) (by omega)
    cases DatagramNetwork.step_cases hp with
    | lose x place datagram found session => simp [DatagramNetwork.deeds, session]
    | take x t i place datagram o found operation hs peer =>
      simpa only [DatagramNetwork.deeds, hp] using (moved hs peer).run_deeds
    | session x t e place other hs peer =>
      simpa only [DatagramNetwork.deeds, hp] using (moved hs peer).run_deeds
  refine ⟨?_, fun x matched finished => ?_⟩
  · rintro before after q rfl reach
    exact ⟨refined reach, Machine.collect_append reach⟩
  · have sound := (DatagramNetwork.Balanced.of_run accepted udp reach).sound
    exact exchange_over sound (refined reach) matched finished

theorem datagrams_refine_exchange_one : ∃ p, Machine.run DatagramNetwork.step
    (.create oneDatagram (fun _ _ => 65472) (fun _ => 0)) (sendOneDatagram ++ receiveOneDatagram) =
      some p ∧
    Machine.run (Exchange.step (plan oneDatagram)) Exchange.start
      (DatagramNetwork.history (.create oneDatagram (fun _ _ => 65472) (fun _ => 0))
        (sendOneDatagram ++ receiveOneDatagram)) = some (exchange p.session) := by
  refine Machine.exists_run (fun p => (p.session .left).isIdle) (b := true) (by decide +kernel) ?_
  intro p reach _
  exact ((datagrams_refine_exchange
    (Side.forall_of .left (accepted_iff.mpr (by decide)) (accepted_iff.mpr (by decide)))
    (fun _ => rfl) reach).1 _ [] p (List.append_nil _).symm reach).1

end NetTester

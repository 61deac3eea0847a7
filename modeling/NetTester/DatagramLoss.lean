import NetTester.Datagrams
import NetTester.OneWay

namespace NetTester

/-- An event of a session, with the place in the channel of the datagram that a receive takes, or
the loss of a datagram. -/
inductive NetworkEvent
  | session (x : Side) (t : Nat) (e : Event) (place : Nat)
  | lose (x : Side) (place : Nat)

/-- Two datagram sessions, the datagrams on their way to each, and how many bytes sent to each were
lost on the way or cut off by a receive. -/
structure DatagramNetwork where
  session : Side → Session
  channel : Side → List (List UInt8)
  lost : Side → Nat

namespace DatagramNetwork

/-- The network reorders and loses datagrams, and duplicates none. A receive takes one of those on
their way and discards what does not fit in its buffer. -/
def step (p : DatagramNetwork) : NetworkEvent → Option DatagramNetwork
  | .lose x place => (p.channel x)[place]?.map fun datagram =>
      { p with
        channel := Function.update p.channel x ((p.channel x).eraseIdx place)
        lost := Function.update p.lost x (p.lost x + datagram.length) }
  | .session x t (.complete (.received i (.ok data))) place =>
    match (p.channel x)[place]?, (p.session x).receives[i]? with
    | some datagram, some o =>
      if data = datagram.take o.handler.bufferSize then
        ((p.session x).step (t, .complete (.received i (.ok data)))).map fun s =>
          { session := Function.update p.session x s
            channel := Function.update p.channel x ((p.channel x).eraseIdx place)
            lost := Function.update p.lost x
              (p.lost x + (datagram.length - o.handler.bufferSize)) }
      else
        none
    | _, _ => none
  | .session x t e _ => ((p.session x).step (t, e)).map fun s =>
      { p with
        session := Function.update p.session x s
        channel := Function.update p.channel x.other
          (p.channel x.other ++ (p.session x).pushDatagrams e) }

def create (c : Side → SessionConfiguration) (draws : Side → Nat → Nat) (now : Side → Nat) :
    DatagramNetwork :=
  ⟨fun x => .create (c x) (draws x) (now x), fun _ => [], fun _ => 0⟩

/-- The bytes on their way to a side. -/
def flying (p : DatagramNetwork) (x : Side) : Nat := (p.channel x).flatten.length

variable {p p' : DatagramNetwork} {x : Side} {t place : Nat} {e : Event}

inductive StepCases (p : DatagramNetwork) (p' : DatagramNetwork) : NetworkEvent → Prop
  | lose (x : Side) (place : Nat) (datagram : List UInt8)
      (found : (p.channel x)[place]? = some datagram) (session : p'.session = p.session)
      (channel : p'.channel x = (p.channel x).eraseIdx place)
      (lost : p'.lost x = p.lost x + datagram.length)
      (channel' : p'.channel x.other = p.channel x.other)
      (lost' : p'.lost x.other = p.lost x.other) : StepCases p p' (.lose x place)
  | take (x : Side) (t i place : Nat) (datagram : List UInt8)
      (o : Operation ReceiveCall (Except ErrorCode Nat))
      (found : (p.channel x)[place]? = some datagram)
      (operation : (p.session x).receives[i]? = some o)
      (hs : (p.session x).step (t, .complete (.received i (.ok
        (datagram.take o.handler.bufferSize)))) = some (p'.session x))
      (peer : p'.session x.other = p.session x.other)
      (channel : p'.channel x = (p.channel x).eraseIdx place)
      (lost : p'.lost x = p.lost x + (datagram.length - o.handler.bufferSize))
      (channel' : p'.channel x.other = p.channel x.other)
      (lost' : p'.lost x.other = p.lost x.other) :
      StepCases p p' (.session x t (.complete (.received i (.ok
        (datagram.take o.handler.bufferSize)))) place)
  | session (x : Side) (t : Nat) (e : Event) (place : Nat)
      (other : ∀ i data, e ≠ .complete (.received i (.ok data)))
      (hs : (p.session x).step (t, e) = some (p'.session x))
      (peer : p'.session x.other = p.session x.other) (channel : p'.channel x = p.channel x)
      (channel' : p'.channel x.other = p.channel x.other ++ (p.session x).pushDatagrams e)
      (lost : p'.lost = p.lost) : StepCases p p' (.session x t e place)

theorem step_cases {event : NetworkEvent} (h : p.step event = some p') : StepCases p p' event := by
  have apart : ∀ x : Side, x ≠ x.other := fun x => (x.other_ne).symm
  unfold step at h
  split at h
  next x place =>
    obtain ⟨datagram, found, rfl⟩ := Option.map_eq_some_iff.mp h
    exact .lose x place datagram found rfl (by simp) (by simp) (by simp) (by simp)
  next x t i data place =>
    split at h
    next datagram o found operation =>
      split at h
      next whole =>
        obtain ⟨s, hs, rfl⟩ := Option.map_eq_some_iff.mp h
        subst whole
        exact .take x t i place datagram o found operation (by simp [hs]) (by simp) (by simp)
          (by simp) (by simp) (by simp)
      next => simp at h
    next => simp at h
  next x t e place other =>
    obtain ⟨s, hs, rfl⟩ := Option.map_eq_some_iff.mp h
    exact .session x t e place (fun i data event => other i data event) (by simp [hs]) (by simp)
      (by simp [apart x]) (by simp) rfl

/-- Taking a datagram out of the channel takes its bytes off those on their way. -/
theorem flatten_eraseIdx {channel : List (List UInt8)} {datagram : List UInt8} {place : Nat}
    (found : channel[place]? = some datagram) :
    (channel.eraseIdx place).flatten.length + datagram.length = channel.flatten.length := by
  induction channel generalizing place with
  | nil => simp at found
  | cons first rest ih =>
    cases place with
    | zero =>
      obtain rfl : first = datagram := by simpa using found
      simp only [List.eraseIdx_zero, List.tail_cons, List.flatten_cons, List.length_append]
      omega
    | succ place =>
      have rest := ih (by simpa using found)
      simp only [List.eraseIdx_cons_succ, List.flatten_cons, List.length_append]
      omega

/-- Every byte that the peer's socket accepted was delivered, is on its way or is lost. -/
def Accounts (p : DatagramNetwork) (x : Side) : Prop :=
  ∃ delivered counted,
    Delivery (p.session x).configuration delivered counted (p.session x).receiveView ∧
      (p.session x.other).acceptedBySocket.length = delivered.length + p.flying x + p.lost x

/-- The invariant of two datagram sessions on a network. -/
structure Balanced (c : Side → SessionConfiguration) (draws : Side → Nat → Nat)
    (p : DatagramNetwork) : Prop where
  configuration : ∀ x, (p.session x).configuration = c x
  draws : ∀ x, (p.session x).draws = draws x
  sound : ∀ x, Sound (p.session x)
  accounts : ∀ x, Accounts p x

namespace Balanced

variable {c : Side → SessionConfiguration} {draws : Side → Nat → Nat}

theorem create (accepted : ∀ x, Accepted (c x)) (now : Side → Nat) :
    Balanced c draws (.create c draws now) where
  configuration := fun _ => rfl
  draws := fun _ => rfl
  sound := fun x => .create (accepted x) _ _
  accounts := fun x => ⟨[], 0, .of_idle rfl (by simp [DatagramNetwork.create, Session.create,
    Session.receiveView]) rfl, rfl⟩

/-- An event of a session that delivers nothing to it keeps both accounts. -/
theorem session_step (h : Balanced c draws p) (udp : ∀ x, (c x).protocol = .udp)
    (other : ∀ i data, e ≠ .complete (.received i (.ok data)))
    (hs : (p.session x).step (t, e) = some (p'.session x))
    (peer : p'.session x.other = p.session x.other) (channel : p'.channel x = p.channel x)
    (channel' : p'.channel x.other = p.channel x.other ++ (p.session x).pushDatagrams e)
    (lost : p'.lost = p.lost) (y : Side) : Accounts p' y := by
  have sound := h.sound x
  have configuration := (Session.step_frame sound.tidy hs).configuration
  revert y
  refine Side.forall_of x ?_ ?_
  · obtain ⟨delivered, counted, delivery, balance⟩ := h.accounts x
    rw [Accounts, flying, peer, channel, lost, configuration]
    cases delivery.step sound hs with
    | fill i data event => exact absurd event (other i data)
    | count slice size n ready other report free after => exact ⟨_, _, after, balance⟩
    | still other same after => exact ⟨_, _, after, balance⟩
    | surplus size n ready =>
      have stream := (sound.receive.probe ready).stream
      rw [h.configuration, udp] at stream
      cases stream
  · obtain ⟨delivered, counted, delivery, balance⟩ := h.accounts x.other
    rw [flying, x.other_other] at balance
    rw [Accounts, flying, x.other_other, peer, channel', lost]
    refine ⟨delivered, counted, delivery, ?_⟩
    rw [acceptedBySocket_step sound hs, List.flatten_append,
      DatagramPair.pushDatagrams_flatten]
    simp only [List.length_append]
    omega

/-- A receive takes a datagram off the channel, and what its buffer does not hold is lost. -/
theorem take_step (h : Balanced c draws p) {i : Nat} {datagram : List UInt8} {size : Nat}
    (found : (p.channel x)[place]? = some datagram)
    (hs : (p.session x).step (t, .complete (.received i (.ok (datagram.take size)))) =
      some (p'.session x))
    (peer : p'.session x.other = p.session x.other)
    (channel : p'.channel x = (p.channel x).eraseIdx place)
    (lost : p'.lost x = p.lost x + (datagram.length - size))
    (channel' : p'.channel x.other = p.channel x.other)
    (lost' : p'.lost x.other = p.lost x.other) (y : Side) : Accounts p' y := by
  have sound := h.sound x
  have configuration := (Session.step_frame sound.tidy hs).configuration
  have erased := flatten_eraseIdx found
  revert y
  refine Side.forall_of x ?_ ?_
  · obtain ⟨delivered, counted, delivery, balance⟩ := h.accounts x
    rw [flying] at balance
    cases delivery.step sound hs with
    | count slice size n ready other => exact absurd rfl (other i _)
    | still other => exact absurd rfl (other i _)
    | surplus size n ready failed other => exact absurd rfl (other i _)
    | fill j data event call pending filled after =>
      simp only [Event.complete.injEq, Completion.received.injEq, Except.ok.injEq] at event
      obtain ⟨_, rfl⟩ := event
      refine ⟨_, counted, configuration ▸ after, ?_⟩
      rw [flying, peer, channel, lost]
      simp only [List.length_append, List.length_take]
      omega
  · obtain ⟨delivered, counted, delivery, balance⟩ := h.accounts x.other
    rw [flying, x.other_other] at balance
    rw [Accounts, flying, x.other_other, peer, channel', lost']
    refine ⟨delivered, counted, delivery, ?_⟩
    rw [acceptedBySocket_step sound hs]
    simpa [Session.push] using balance

theorem step (h : Balanced c draws p) (udp : ∀ x, (c x).protocol = .udp) {event : NetworkEvent}
    (hp : p.step event = some p') : Balanced c draws p' := by
  have moved : ∀ {x t e}, (p.session x).step (t, e) = some (p'.session x) →
      p'.session x.other = p.session x.other → (∀ y, Accounts p' y) → Balanced c draws p' := by
    intro x t e hs peer accounts
    have frame := Session.step_frame (h.sound x).tidy hs
    refine ⟨Side.forall_of x ?_ ?_, Side.forall_of x ?_ ?_, Side.forall_of x ?_ ?_, accounts⟩
    · exact frame.configuration.trans (h.configuration x)
    · exact peer ▸ h.configuration x.other
    · exact frame.draws.trans (h.draws x)
    · exact peer ▸ h.draws x.other
    · exact (h.sound x).step hs
    · exact peer ▸ h.sound x.other
  cases step_cases hp with
  | lose x place datagram found session channel lost channel' lost' =>
    refine ⟨session ▸ h.configuration, session ▸ h.draws, session ▸ h.sound,
      Side.forall_of x ?_ ?_⟩
    · obtain ⟨delivered, counted, delivery, balance⟩ := h.accounts x
      have erased := flatten_eraseIdx found
      rw [flying] at balance
      rw [Accounts, flying, session, channel, lost]
      exact ⟨delivered, counted, delivery, by omega⟩
    · rw [Accounts, flying, session, channel', lost']
      exact h.accounts x.other
  | take x t i place datagram o found operation hs peer channel lost channel' lost' =>
    exact moved hs peer (h.take_step found hs peer channel lost channel' lost')
  | session x t e place other hs peer channel channel' lost =>
    exact moved hs peer (h.session_step udp other hs peer channel channel' lost)

theorem of_run (accepted : ∀ x, Accepted (c x)) (udp : ∀ x, (c x).protocol = .udp)
    {now : Side → Nat} {events : List NetworkEvent}
    (reach : Machine.run DatagramNetwork.step (.create c draws now) events = some p) :
    Balanced c draws p :=
  Machine.run_invariant (Balanced c draws) (fun _ _ _ h hp => h.step udp hp) (create accepted now)
    reach

/-- What a side has counted or holds, what is on its way to it and what was lost add up to what its
peer's socket accepted. -/
theorem sum (h : Balanced c draws p) (x : Side) :
    (p.session x).statistics.receivedBytesCount.value + (p.session x).heldBytes + p.flying x +
      p.lost x = (p.session x.other).acceptedBySocket.length := by
  obtain ⟨delivered, counted, delivery, balance⟩ := h.accounts x
  have account := delivery.length (h.sound x).tidy.receives
  have counter : (p.session x).statistics.receivedBytesCount.value = counted % 2 ^ 64 :=
    delivery.counter
  have within := Spent.acceptedBySocket_le (h.sound x.other)
  have bounded := (p.session x.other).configuration.size.bounded
  omega

end Balanced

end DatagramNetwork

/-- A datagram session that completes its side of a test has lost nothing: no byte its peer sent was
lost, cut off by a short buffer, or is still on its way. So a lost byte keeps the receiver from
finishing, whatever the order of the datagrams and whatever else happens to the sessions. -/
theorem datagram_loss_unfinished {c : Side → SessionConfiguration} (accepted : ∀ x, Accepted (c x))
    (udp : ∀ x, (c x).protocol = .udp) (size : ∀ x, (c x.other).size.value = (c x).size.value)
    {draws : Side → Nat → Nat} {now : Side → Nat} {events : List NetworkEvent}
    {p : DatagramNetwork}
    (reach : Machine.run DatagramNetwork.step (.create c draws now) events = some p) (x : Side) :
    (p.session x).statistics.receivedBytesCount.value + (p.session x).heldBytes + p.flying x +
        p.lost x = (p.session x.other).acceptedBySocket.length ∧
      ((c x).direction ≠ .tx → Call.onFinish ∈ (p.session x).calls →
        p.lost x = 0 ∧ p.flying x = 0 ∧
        (p.session x).statistics.receivedBytesCount.value = (c x).size.value ∧
        (p.session x.other).acceptedBySocket = pattern (c x).size.value) := by
  have h := DatagramNetwork.Balanced.of_run accepted udp reach
  have sum := h.sum x
  refine ⟨sum, fun used finished => ?_⟩
  have done := ((h.sound x).onFinish_iff).mp finished
  simp only [Session.isDone, Bool.and_eq_true] at done
  have full := (h.sound x).full_of_complete (h.configuration x ▸ used) done.1
  rw [h.configuration x] at full
  obtain ⟨n, bound, all⟩ := Session.acceptedBySocket_pattern (h.sound x.other)
  rw [h.configuration x.other, size x] at bound
  rw [all, pattern_length] at sum
  obtain rfl : n = (c x).size.value := by omega
  exact ⟨by omega, by omega, by omega, all⟩

/-- One byte in a datagram from the left side to the right one. -/
def oneDatagram (x : Side) : SessionConfiguration :=
  { defaultConfiguration "127.0.0.1:1234" ⟨1, .iec, one_bounded⟩ with
    protocol := .udp
    direction := if x = .left then .tx else .rx
    shutdownPolicy := if x = .left then .sendComplete else .receiveComplete }

def sendOneDatagram : List NetworkEvent :=
  [.session .left 0 (.invoke (.posted 0)) 0, .session .left 0 (.complete (.sendSlice 0)) 0,
    .session .left 0 (.invoke (.sendThrottle 0)) 0,
    .session .left 0 (.complete (.sent 0 (.ok 1))) 0]

theorem datagram_loss_unfinished_one : ∃ p, Machine.run DatagramNetwork.step
    (.create oneDatagram (fun _ _ => 0) (fun _ => 0)) (sendOneDatagram ++ [.lose .right 0]) =
      some p ∧ p.lost .right = 1 ∧ Call.onFinish ∉ (p.session .right).calls := by
  refine Machine.exists_run (fun p => p.lost .right) (b := 1) (by decide +kernel) ?_
  intro p reach lost
  have whole := (datagram_loss_unfinished
    (Side.forall_of .left (accepted_iff.mpr (by decide)) (accepted_iff.mpr (by decide)))
    (fun _ => rfl) (fun _ => rfl) reach .right).2 (by decide)
  exact ⟨lost, fun finished => by simp [lost] at whole; exact whole finished⟩

/-- What happens without a failure, a timeout or a signal. -/
def Event.isPrompt : Event → Bool
  | .complete (.received _ (.error _)) => false
  | .complete (.sent _ (.error _)) => false
  | .complete (.timedOut _) => false
  | .complete (.signalled _) => false
  | _ => true

namespace DatagramNetwork

/-- Nothing prompt can happen to either session any more. -/
def Resting (p : DatagramNetwork) : Prop :=
  ∀ x t e place, e.isPrompt = true → p.step (.session x t e place) = none

variable {p : DatagramNetwork} {x : Side} {e : Event}

theorem Resting.disabled (h : Resting p) (prompt : e.isPrompt = true)
    (other : ∀ i data, e ≠ .complete (.received i (.ok data))) : ¬(p.session x).Enabled e := by
  rintro ⟨t, s', hs⟩
  have stuck := h x t e 0 prompt
  unfold step at stuck
  split at stuck
  next => simp_all
  next event => simp_all
  next event =>
    cases event
    simp [hs] at stuck

namespace Balanced

variable {c : Side → SessionConfiguration} {draws : Side → Nat → Nat}

theorem alive (h : Balanced c draws p)
    (fits : ∀ x m, Drawn (c x) (draws x) m → m ≤ bufferSize - 255) (x : Side) :
    (p.session x).assertionFailed = false := by
  refine (h.sound x).send.alive fun _ m drawn => fits x m ?_
  rwa [h.configuration x, h.draws x] at drawn

theorem started (h : Balanced c draws p) (udp : ∀ x, (c x).protocol = .udp)
    (timer : ∀ x, (Session.estimateTestDuration (c x)).isSome = true)
    (alive : (p.session x).assertionFailed = false) (resting : Resting p) :
    (p.session x).statistics.startDate ≠ none := by
  have own := h.configuration x
  cases (h.sound x).opening with
  | connecting tcp =>
    rw [own, udp] at tcp
    cases tcp
  | connected tcp =>
    rw [own, udp] at tcp
    cases tcp
  | started _ date => exact date
  | posted _ date opens posts =>
    refine absurd ?_ (resting.disabled (x := x) (e := .invoke (.posted 0)) rfl (by simp))
    apply Session.enabled_of_dispatch (Nat.le_refl _) alive
    obtain ⟨duration, estimated⟩ := Option.isSome_iff_exists.mp (timer x)
    rw [← own] at estimated
    simp [Session.dispatch, Session.invoke, posts, Session.runPosted, Session.startTimer, estimated]

/-- At rest a side has sent everything. -/
theorem send_resting (h : Balanced c draws p) (udp : ∀ x, (c x).protocol = .udp)
    (timer : ∀ x, (Session.estimateTestDuration (c x)).isSome = true)
    (alive : (p.session x).assertionFailed = false) (resting : Resting p)
    (clear : (p.session x).failure = none) : (p.session x).isSendComplete = true := by
  rcases NetTester.send_resting (h.sound x) alive clear (h.started udp timer alive resting)
    (resting.disabled rfl (by simp)) (resting.disabled rfl (by simp))
    (resting.disabled rfl (by simp)) with complete | ⟨call, pending, _⟩
  · exact complete
  · exact absurd (Session.enabled_sent alive pending (Nat.le_refl _))
      (resting.disabled rfl (by simp))

/-- At rest no datagram is on its way to a receive that is still pending. -/
theorem receive_resting (h : Balanced c draws p) (udp : ∀ x, (c x).protocol = .udp)
    (timer : ∀ x, (Session.estimateTestDuration (c x)).isSome = true)
    (alive : (p.session x).assertionFailed = false) (resting : Resting p)
    (clear : (p.session x).failure = none) :
    (p.session x).isReceiveComplete = true ∨
      p.channel x = [] ∧ ∃ call, (p.session x).receives = [⟨call, none⟩] := by
  rcases NetTester.receive_resting (h.sound x) alive clear (h.started udp timer alive resting)
    (resting.disabled rfl (by simp)) (resting.disabled rfl (by simp))
    (resting.disabled rfl (by simp)) with ⟨complete, _⟩ | ⟨call, pending, _⟩
  · exact .inl complete
  · refine .inr ⟨?_, call, pending⟩
    by_contra flying
    obtain ⟨datagram, rest, channel⟩ := List.exists_cons_of_ne_nil flying
    have stuck := resting x (p.session x).now
      (.complete (.received 0 (.ok (datagram.take call.bufferSize)))) 0 rfl
    have stream : (p.session x).configuration.protocol = .udp := h.configuration x ▸ udp x
    simp [DatagramNetwork.step, channel, pending, Session.step, alive, Session.dispatch,
      Session.complete, Session.completeReceive, stream, Operation.complete] at stuck

end Balanced

end DatagramNetwork

/-- Two datagram sessions that come to rest without a failure have counted all that was not lost,
and a side has finished exactly when nothing that was sent to it was lost. -/
theorem datagrams_finish_iff {c : Side → SessionConfiguration} (accepted : ∀ x, Accepted (c x))
    (udp : ∀ x, (c x).protocol = .udp) (size : ∀ x, (c x.other).size.value = (c x).size.value)
    (roles : ∀ x, (c x).direction = .tx ↔ (c x.other).direction = .rx)
    (timer : ∀ x, (Session.estimateTestDuration (c x)).isSome = true) {draws : Side → Nat → Nat}
    (fits : ∀ x m, Drawn (c x) (draws x) m → m ≤ bufferSize - 255) {now : Side → Nat}
    {events : List NetworkEvent} {p : DatagramNetwork}
    (reach : Machine.run DatagramNetwork.step (.create c draws now) events = some p)
    (clear : ∀ x, (p.session x).failure = none) (resting : p.Resting) (x : Side) :
    (Call.onFinish ∈ (p.session x).calls ↔ p.lost x = 0) ∧
      ((c x).direction ≠ .tx →
        (p.session x).statistics.receivedBytesCount.value + p.lost x = (c x).size.value) := by
  have h := DatagramNetwork.Balanced.of_run accepted udp reach
  have alive := h.alive fits
  have own := h.configuration x
  have peer := h.configuration x.other
  have sound := h.sound x
  have sum := h.sum x
  have sends := fun y => h.send_resting udp timer (alive y) resting (clear y)
  have finished : Call.onFinish ∈ (p.session x).calls ↔
      (p.session x).isReceiveComplete = true := by
    rw [sound.onFinish_iff, Session.isDone, sends x, Bool.and_true]
  rw [finished]
  have within := Spent.acceptedBySocket_le (h.sound x.other)
  rw [peer, size x] at within
  by_cases used : (c x).direction = .tx
  · -- A side that only sends has a silent peer, and no receive to wait for.
    have silent := acceptedBySocket_unused (h.sound x.other) (peer ▸ (roles x).mp used)
    rw [silent, List.length_nil] at sum
    refine ⟨⟨fun _ => by omega, fun _ => ?_⟩, fun other => absurd used other⟩
    rcases h.receive_resting udp timer (alive x) resting (clear x) with
      complete | ⟨_, ⟨handler, room⟩, pending⟩
    · exact complete
    · cases handler with
      | onReceive slice =>
        have receives := (sound.receive.slice pending).used
        exact absurd (own ▸ used) receives
      | onEof =>
        have stream := (sound.receive.probe pending).stream
        rw [own, udp] at stream
        cases stream
  · have whole : (p.session x.other).acceptedBySocket.length = (c x).size.value := by
      have sender : (c x.other).direction ≠ .rx := fun rx => used ((roles x).mpr rx)
      have all := (Ceased.acceptedBySocket (.inr (sends x.other)) (h.sound x.other)
        (peer ▸ sender)).2
      rw [all, pattern_length, peer, size x]
    rcases h.receive_resting udp timer (alive x) resting (clear x) with
      complete | ⟨none, ⟨handler, room⟩, pending⟩
    · have full := sound.full_of_complete (own ▸ used) complete
      rw [own] at full
      exact ⟨⟨fun _ => by omega, fun _ => complete⟩, fun _ => by omega⟩
    · have flying : p.flying x = 0 := by simp [DatagramNetwork.flying, none]
      have held : (p.session x).heldBytes = 0 := by simp [Session.heldBytes, pending]
      have incomplete : (p.session x).isReceiveComplete ≠ true := fun complete => by
        simp [sound.tidy.receiveComplete complete] at pending
      cases handler with
      | onReceive slice =>
        have short := (sound.receive.slice pending).short
        rw [own] at short
        have short : (p.session x).statistics.receivedBytesCount.value < (c x).size.value := short
        exact ⟨⟨fun complete => absurd complete incomplete, fun _ => by omega⟩, fun _ => by omega⟩
      | onEof =>
        have stream := (sound.receive.probe pending).stream
        rw [own, udp] at stream
        cases stream

def receiveOneDatagram : List NetworkEvent :=
  [.session .left 0 (.invoke (.onSend 0)) 0, .session .left 0 (.invoke (.onTimeout 0)) 0,
    .session .left 0 (.invoke (.onSignal 0)) 0, .session .right 0 (.invoke (.posted 0)) 0,
    .session .right 0 (.complete (.receiveSlice 0)) 0,
    .session .right 0 (.invoke (.receiveThrottle 0)) 0,
    .session .right 0 (.complete (.received 0 (.ok [0]))) 0,
    .session .right 0 (.invoke (.onReceive 0)) 0, .session .right 0 (.invoke (.onTimeout 0)) 0,
    .session .right 0 (.invoke (.onSignal 0)) 0]

/-- Two idle sessions are at rest. -/
theorem DatagramNetwork.resting_of_idle {p : DatagramNetwork}
    (idle : ∀ x, (p.session x).isIdle = true) : p.Resting := by
  intro x t e place prompt
  by_contra moves
  obtain ⟨p', hp⟩ := Option.ne_none_iff_exists'.mp moves
  have signalled : ∀ {e : Event} {s : Session}, (p.session x).step (t, e) = some s →
      e.isPrompt = false := by
    intro e s hs
    obtain ⟨⟨n, rfl⟩, _⟩ := Session.isIdle_step (idle x) hs
    rfl
  cases step_cases hp with
  | take x t i place datagram o found operation hs => simp [signalled hs] at prompt
  | session x t e place other hs => simp [signalled hs] at prompt

theorem datagrams_finish_one : ∃ p, Machine.run DatagramNetwork.step
    (.create oneDatagram (fun _ _ => 65472) (fun _ => 0)) (sendOneDatagram ++ receiveOneDatagram) =
      some p ∧ ∀ x, Call.onFinish ∈ (p.session x).calls := by
  refine Machine.exists_run (fun p => (((p.session .left).isIdle, (p.session .right).isIdle),
    ((p.session .left).failure, (p.session .right).failure), (p.lost .left, p.lost .right)))
    (b := ((true, true), (none, none), (0, 0))) (by decide +kernel) ?_
  intro p reach observed
  simp only [Prod.mk.injEq] at observed
  obtain ⟨⟨left, right⟩, ⟨clear, clear'⟩, lost, lost'⟩ := observed
  have finishes := datagrams_finish_iff
    (Side.forall_of .left (accepted_iff.mpr (by decide)) (accepted_iff.mpr (by decide)))
    (fun _ => rfl) (fun _ => rfl) (Side.forall_of .left (by decide) (by decide))
    (Side.forall_of .left (by decide) (by decide))
    (Side.forall_of .left
      (fun m drawn => (drawn.within fun _ => by decide).2.trans (by decide))
      fun m drawn => (drawn.within fun _ => by decide).2.trans (by decide))
    reach (Side.forall_of .left clear clear')
    (DatagramNetwork.resting_of_idle (Side.forall_of .left left right))
  exact Side.forall_of .left ((finishes .left).1.mpr lost) ((finishes .right).1.mpr lost')

end NetTester

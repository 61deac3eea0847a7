import NetTester.Wire

namespace NetTester

inductive Party
  | sender
  | receiver
deriving DecidableEq

/-- Two datagram sessions and the channel from one to the other. The datagrams that the receiver has
taken off the channel are history. -/
structure DatagramPair where
  sender : Session
  receiver : Session
  channel : List (List UInt8)
  taken : List (List UInt8)

/-- A completed send is one datagram. -/
def Session.pushDatagrams (s : Session) (e : Event) : List (List UInt8) :=
  match e with
  | .complete (.sent _ (.ok _)) => [s.push e]
  | _ => []

namespace DatagramPair

/-- A receive takes one datagram off the channel and discards what does not fit in its buffer. -/
def step (p : DatagramPair) (event : Party × Nat × Event) : Option DatagramPair :=
  match event with
  | (.sender, t, e) => (p.sender.step (t, e)).map fun s =>
      { p with sender := s, channel := p.channel ++ p.sender.pushDatagrams e }
  | (.receiver, t, .complete (.received i (.ok data))) =>
    match p.channel, p.receiver.receives[i]? with
    | datagram :: rest, some o =>
      if data = datagram.take o.handler.bufferSize then
        (p.receiver.step (t, .complete (.received i (.ok data)))).map fun s =>
          { p with receiver := s, channel := rest, taken := p.taken ++ [datagram] }
      else
        none
    | _, _ => none
  | (.receiver, t, e) => (p.receiver.step (t, e)).map fun s => { p with receiver := s }

def create (sender receiver : SessionConfiguration) (senderDraws receiverDraws : Nat → Nat)
    (senderNow receiverNow : Nat) : DatagramPair :=
  ⟨.create sender senderDraws senderNow, .create receiver receiverDraws receiverNow, [], []⟩

/-- The datagram that is taken fits in the buffer that it is received in. -/
def Fits (p : DatagramPair) : Party × Nat × Event → Prop
  | (.receiver, _, .complete (.received i (.ok _))) => ∀ datagram rest o,
      p.channel = datagram :: rest → p.receiver.receives[i]? = some o →
        datagram.length ≤ o.handler.bufferSize
  | _ => True

inductive StepCases (p : DatagramPair) : Party × Nat × Event → DatagramPair → Prop
  | sender (t : Nat) (e : Event) (s : Session) (hs : p.sender.step (t, e) = some s) :
      StepCases p (.sender, t, e)
        { p with sender := s, channel := p.channel ++ p.sender.pushDatagrams e }
  | take (t i : Nat) (datagram : List UInt8) (rest : List (List UInt8))
      (o : Operation ReceiveCall (Except ErrorCode Nat)) (s : Session)
      (channel : p.channel = datagram :: rest) (found : p.receiver.receives[i]? = some o)
      (hs : p.receiver.step (t, .complete (.received i (.ok
        (datagram.take o.handler.bufferSize)))) = some s) :
      StepCases p (.receiver, t, .complete (.received i (.ok
        (datagram.take o.handler.bufferSize))))
        { p with receiver := s, channel := rest, taken := p.taken ++ [datagram] }
  | receiver (t : Nat) (e : Event) (s : Session)
      (other : ∀ i data, e ≠ .complete (.received i (.ok data)))
      (hs : p.receiver.step (t, e) = some s) :
      StepCases p (.receiver, t, e) { p with receiver := s }

theorem step_cases {p p' : DatagramPair} {event : Party × Nat × Event}
    (h : p.step event = some p') : StepCases p event p' := by
  unfold step at h
  split at h
  next t e =>
    obtain ⟨s, hs, rfl⟩ := Option.map_eq_some_iff.mp h
    exact .sender t e s hs
  next t i data =>
    split at h
    next datagram rest o channel found =>
      split at h
      next whole =>
        obtain ⟨s, hs, rfl⟩ := Option.map_eq_some_iff.mp h
        subst whole
        exact .take t i datagram rest o s channel found hs
      next => simp at h
    next => simp at h
  next t e other =>
    obtain ⟨s, hs, rfl⟩ := Option.map_eq_some_iff.mp h
    exact .receiver t e s (fun i data event => other i data event) hs

theorem pushDatagrams_flatten (s : Session) (e : Event) :
    (s.pushDatagrams e).flatten = s.push e := by
  unfold Session.pushDatagrams
  split
  next => simp
  next other =>
    unfold Session.push
    split
    next i n => exact absurd rfl (other i n)
    next => rfl

/-- What the sender's socket accepted was taken by the receiver or is still on its way, and the
receiver has counted or holds what it took, less what did not fit. -/
structure Conserves (start : DatagramPair) (events : List (Party × Nat × Event))
    (p : DatagramPair) : Prop where
  sender : Sound p.sender
  receiver : Sound p.receiver
  udp : p.receiver.configuration.protocol = .udp
  configuration : p.receiver.configuration = start.receiver.configuration
  sent : p.sender.acceptedBySocket = (p.taken ++ p.channel).flatten
  received : ∃ delivered counted dropped,
    Delivery p.receiver.configuration delivered counted p.receiver.receiveView ∧
      delivered.length + dropped = p.taken.flatten.length ∧
      (dropped = 0 → delivered = p.taken.flatten) ∧
      (dropped = 0 ↔ Machine.Along step Fits start events)
  silent : Machine.Along step Fits start events → p.receiver.configuration.verify = .all →
    .tester .dataMismatch ∉ p.receiver.aborts

namespace Conserves

variable {start p p' : DatagramPair} {events : List (Party × Nat × Event)}

/-- An event whose condition is trivial extends the condition on the run. -/
theorem along_extend (reach : Machine.run step start events = some p)
    (event : Party × Nat × Event) (fits : Fits p event) :
    Machine.Along step Fits start (events ++ [event]) ↔ Machine.Along step Fits start events := by
  rw [Machine.along_concat]
  refine ⟨fun h => h.1, fun h => ⟨h, fun q hq => ?_⟩⟩
  obtain rfl : p = q := Option.some.inj (reach.symm.trans hq)
  exact fits

theorem length_le (h : Conserves start events p) :
    p.taken.flatten.length ≤ p.sender.configuration.size.value := by
  exact (delivered_pattern h.sender (h.sent.trans List.flatten_append)).2

/-- Verification finds the pattern in what a receive was delivered. -/
theorem step_silent (h : Conserves start events p) {t : Nat} {e : Event} {s : Session}
    (hs : p.receiver.step (t, e) = some s)
    (fitted : Machine.Along DatagramPair.step Fits start events)
    (all : p.receiver.configuration.verify = .all) : .tester .dataMismatch ∉ s.aborts := by
  have before := h.silent fitted all
  cases (Session.step_frame h.receiver.tidy hs).reports with
  | complete completion event report =>
    have same : s.aborts = p.receiver.aborts := congrArg Report.aborts report
    rw [same]
    exact before
  | invoke handler event f n cause report =>
    rw [Report.abort_iterate] at report
    split at report
    next =>
      have same : s.aborts = p.receiver.aborts := congrArg Report.aborts report
      rw [same]
      exact before
    next some =>
      have aborts : s.aborts = List.replicate n f ++ p.receiver.aborts :=
        congrArg Report.aborts report
      rw [aborts, List.mem_append, not_or]
      refine ⟨fun member => ?_, before⟩
      obtain rfl := (List.mem_replicate.mp member).2
      obtain ⟨slice, size, k, ready, mismatch⟩ := h.receiver.mismatch_cause cause some
      obtain ⟨delivered, counted, dropped, delivery, _, whole, fits⟩ := h.received
      obtain ⟨length, held, _⟩ := delivery.held _ k ready
      have split : p.sender.acceptedBySocket = delivered ++ p.channel.flatten := by
        rw [h.sent, List.flatten_append, whole (fits.mpr fitted)]
      have exact := (delivered_pattern h.sender split).1
      apply mismatch
      rw [all, mismatches_all_eq_zero delivery.counter]
      intro i hi
      have at_i := held i hi
      rw [exact, pattern_getElem? (by omega)] at at_i
      exact (Option.some.inj at_i).symm

theorem step (h : Conserves start events p)
    (reach : Machine.run DatagramPair.step start events = some p) {event : Party × Nat × Event}
    (next : p.step event = some p') : Conserves start (events ++ [event]) p' := by
  obtain ⟨delivered, counted, dropped, delivery, length, whole, fitted⟩ := h.received
  cases step_cases next with
  | sender t e s hs =>
    have same := along_extend reach (.sender, t, e) trivial
    refine ⟨h.sender.step hs, h.receiver, h.udp, h.configuration, ?_,
      ⟨delivered, counted, dropped, delivery, length, whole, fitted.trans same.symm⟩,
      fun along => h.silent (same.mp along)⟩
    simp only [acceptedBySocket_step h.sender hs, h.sent, List.flatten_append, List.append_assoc,
      pushDatagrams_flatten]
  | take t i datagram rest o s channel found hs =>
    have frame := Session.step_frame h.receiver.tidy hs
    have fit : Fits p (.receiver, t, .complete (.received i (.ok
        (datagram.take o.handler.bufferSize)))) ↔ datagram.length ≤ o.handler.bufferSize := by
      refine ⟨fun fits => fits datagram rest o channel found,
        fun fits datagram' rest' o' head eq => ?_⟩
      obtain ⟨rfl, _⟩ := List.cons.inj (channel.symm.trans head)
      obtain rfl := Option.some.inj (found.symm.trans eq)
      exact fits
    have along : Machine.Along DatagramPair.step Fits start (events ++ [(.receiver, t,
        .complete (.received i (.ok (datagram.take o.handler.bufferSize))))]) ↔
        Machine.Along DatagramPair.step Fits start events ∧
          datagram.length ≤ o.handler.bufferSize := by
      rw [Machine.along_concat, ← fit]
      refine and_congr_right fun _ => ⟨fun last => last p reach, fun fits q hq => ?_⟩
      obtain rfl : p = q := Option.some.inj (reach.symm.trans hq)
      exact fits
    cases delivery.step h.receiver hs with
    | count slice size n ready other => exact absurd rfl (other i _)
    | still other => exact absurd rfl (other i _)
    | surplus size n ready =>
      have stream := (h.receiver.receive.probe ready).stream
      exact absurd (h.udp.symm.trans stream) (by decide)
    | fill j data event call pending filled after =>
      simp only [Event.complete.injEq, Completion.received.injEq, Except.ok.injEq] at event
      obtain ⟨_, rfl⟩ := event
      have configuration := frame.configuration
      have taken : (p.taken ++ [datagram]).flatten = p.taken.flatten ++ datagram := by simp
      refine ⟨h.sender, h.receiver.step hs, configuration ▸ h.udp,
        configuration.trans h.configuration, ?_,
        ⟨_, counted, dropped + (datagram.length - o.handler.bufferSize),
          configuration.symm ▸ after, ?_, fun none => ?_, ?_⟩, fun fits all => ?_⟩
      · rw [h.sent, channel]
        simp
      · simp only [taken, List.length_append, List.length_take]
        omega
      · rw [taken, whole (by omega), List.take_of_length_le (by omega)]
      · rw [along, ← fitted]
        omega
      · exact h.step_silent hs (along.mp fits).1 (configuration ▸ all)
  | receiver t e s other hs =>
    have frame := Session.step_frame h.receiver.tidy hs
    have same := along_extend reach (.receiver, t, e) (by
      unfold Fits
      split
      next t' i data event => exact absurd (congrArg (fun x => x.2.2) event) (other i data)
      next => trivial)
    have moved : ∃ counted, Delivery p.receiver.configuration delivered counted s.receiveView := by
      cases delivery.step h.receiver hs with
      | fill i data event => exact absurd event (other i data)
      | count slice size n ready other report free after => exact ⟨_, after⟩
      | still other same after => exact ⟨_, after⟩
      | surplus size n ready =>
        have stream := (h.receiver.receive.probe ready).stream
        exact absurd (h.udp.symm.trans stream) (by decide)
    obtain ⟨counted, delivery⟩ := moved
    have configuration := frame.configuration
    refine ⟨h.sender, h.receiver.step hs, configuration ▸ h.udp,
      configuration.trans h.configuration, h.sent,
      ⟨delivered, counted, dropped, configuration.symm ▸ delivery, length, whole,
        fitted.trans same.symm⟩, fun along all => ?_⟩
    exact h.step_silent hs (same.mp along) (configuration ▸ all)

theorem of_run {sender receiver : SessionConfiguration} (acceptedSender : Accepted sender)
    (acceptedReceiver : Accepted receiver) (udp : receiver.protocol = .udp)
    {senderDraws receiverDraws : Nat → Nat} {senderNow receiverNow : Nat}
    (reach : Machine.run DatagramPair.step (create sender receiver senderDraws receiverDraws
      senderNow receiverNow) events = some p) :
    Conserves (create sender receiver senderDraws receiverDraws senderNow receiverNow) events
      p := by
  refine Machine.run_induction (Conserves _) ?_ (fun _ _ _ _ reach h hs => h.step reach hs) reach
  refine ⟨.create acceptedSender _ _, .create acceptedReceiver _ _, udp, rfl, rfl,
    ⟨[], 0, 0, .of_idle rfl ?_ rfl, rfl, fun _ => rfl, by simp [Machine.Along]⟩, fun _ _ => ?_⟩
  · simp [create, Session.create, Session.receiveView]
  · simp [create, Session.create, Session.aborts]

end Conserves

end DatagramPair

/-- The receiver has counted or holds every byte of the datagrams it took exactly when each of them
fitted in the buffer it was received in; then no byte is lost and verification stays silent. -/
theorem datagrams_counted_iff {sender receiver : SessionConfiguration}
    (acceptedSender : Accepted sender) (acceptedReceiver : Accepted receiver)
    (udp : receiver.protocol = .udp) {senderDraws receiverDraws : Nat → Nat}
    {senderNow receiverNow : Nat} {events : List (Party × Nat × Event)} {p : DatagramPair}
    (reach : Machine.run DatagramPair.step (.create sender receiver senderDraws receiverDraws
      senderNow receiverNow) events = some p) :
    (p.receiver.statistics.receivedBytesCount.value + p.receiver.heldBytes =
        p.taken.flatten.length ↔
      Machine.Along DatagramPair.step DatagramPair.Fits (.create sender receiver senderDraws
        receiverDraws senderNow receiverNow) events) ∧
    (Machine.Along DatagramPair.step DatagramPair.Fits (.create sender receiver senderDraws
        receiverDraws senderNow receiverNow) events →
      p.sender.acceptedBySocket.length = p.receiver.statistics.receivedBytesCount.value +
        p.receiver.heldBytes + p.channel.flatten.length ∧
      (receiver.verify = .all → .tester .dataMismatch ∉ p.receiver.aborts)) := by
  have h := DatagramPair.Conserves.of_run acceptedSender acceptedReceiver udp reach
  obtain ⟨delivered, counted, dropped, delivery, length, _, fitted⟩ := h.received
  have account := delivery.length h.receiver.tidy.receives
  have bound := h.length_le
  have size := p.sender.configuration.size.bounded
  have counter : p.receiver.statistics.receivedBytesCount.value = counted % 2 ^ 64 :=
    delivery.counter
  have counts : p.receiver.statistics.receivedBytesCount.value + p.receiver.heldBytes =
      p.taken.flatten.length ↔ dropped = 0 := by omega
  refine ⟨counts.trans fitted, fun fits => ⟨?_, fun all => ?_⟩⟩
  · have whole := counts.mpr (fitted.mpr fits)
    rw [h.sent, List.flatten_append, List.length_append, whole]
  · exact h.silent fits (h.configuration ▸ all)

/-- A datagram of two bytes that its receiver takes with its first slice. -/
def sendDatagram (data : List UInt8) : List (Party × Nat × Event) :=
  [(.sender, 0, .invoke (.posted 0)), (.sender, 0, .complete (.sendSlice 0)),
    (.sender, 0, .invoke (.sendThrottle 0)), (.sender, 0, .complete (.sent 0 (.ok 2))),
    (.receiver, 0, .invoke (.posted 0)), (.receiver, 0, .complete (.receiveSlice 0)),
    (.receiver, 0, .invoke (.receiveThrottle 0)),
    (.receiver, 0, .complete (.received 0 (.ok data))), (.receiver, 0, .invoke (.onReceive 0))]

theorem two_bytes_bounded : 2 < 2 ^ 64 := by decide

/-- Two bytes in datagrams, received at the given number of bytes a second. -/
def datagramConfiguration (bandwidth : Size) : SessionConfiguration :=
  { defaultConfiguration "127.0.0.1:1234" ⟨2, .iec, two_bytes_bounded⟩ with
    protocol := .udp, verify := .all, receiveBandwidth := bandwidth }

theorem datagrams_counted_whole : ∃ p, Machine.run DatagramPair.step
    (.create (datagramConfiguration ⟨2000, .si, by decide⟩)
      (datagramConfiguration ⟨2000, .si, by decide⟩) (fun _ => 0) (fun _ => 0) 0 0)
    (sendDatagram [0, 1]) = some p ∧
    Machine.Along DatagramPair.step DatagramPair.Fits
      (.create (datagramConfiguration ⟨2000, .si, by decide⟩)
        (datagramConfiguration ⟨2000, .si, by decide⟩) (fun _ => 0) (fun _ => 0) 0 0)
      (sendDatagram [0, 1]) := by
  refine Machine.exists_run (fun p => (p.receiver.statistics.receivedBytesCount.value +
    p.receiver.heldBytes, p.taken.flatten.length)) (b := (2, 2)) (by decide +kernel) ?_
  intro p reach observed
  obtain ⟨counts, taken⟩ := Prod.mk.inj observed
  exact (datagrams_counted_iff (accepted_iff.mpr (by decide)) (accepted_iff.mpr (by decide)) rfl
    reach).1.mp (counts.trans taken.symm)

/-- A receiver whose slice is one byte takes a datagram of two and counts one. -/
theorem datagram_truncated : ¬∀ (sender receiver : SessionConfiguration) (_ : Accepted sender)
    (_ : Accepted receiver) (_ : sender.protocol = .udp) (_ : receiver.protocol = .udp)
    (_ : sender.size = receiver.size) (_ : sender.direction ≠ .rx) (_ : receiver.direction ≠ .tx)
    (senderDraws receiverDraws : Nat → Nat) (senderNow receiverNow : Nat)
    (events : List (Party × Nat × Event)) (p : DatagramPair)
    (_ : Machine.run DatagramPair.step (.create sender receiver senderDraws receiverDraws senderNow
      receiverNow) events = some p)
    (_ : p.receiver.calls.count .finishReceive = 0) (_ : p.receiver.heldBytes = 0),
    p.receiver.statistics.receivedBytesCount.value = p.taken.flatten.length := by
  intro claim
  obtain ⟨p, reach, unfinished, held, counted, taken⟩ : ∃ p, Machine.run DatagramPair.step
      (.create (datagramConfiguration ⟨1000, .si, by decide⟩)
        (datagramConfiguration ⟨1000, .si, by decide⟩) (fun _ => 0) (fun _ => 0) 0 0)
      (sendDatagram [0]) = some p ∧ p.receiver.calls.count .finishReceive = 0 ∧
      p.receiver.heldBytes = 0 ∧ p.receiver.statistics.receivedBytesCount.value = 1 ∧
      p.taken.flatten.length = 2 := by
    refine Machine.exists_run (fun p => (p.receiver.calls.count .finishReceive,
      p.receiver.heldBytes, p.receiver.statistics.receivedBytesCount.value,
      p.taken.flatten.length)) (b := (0, 0, 1, 2)) (by decide +kernel) ?_
    intro p reach observed
    simpa only [Prod.mk.injEq] using observed
  have exact := claim _ _ (accepted_iff.mpr (by decide)) (accepted_iff.mpr (by decide)) rfl rfl rfl
    (by decide) (by decide) _ _ _ _ _ p reach unfinished held
  rw [counted, taken] at exact
  exact absurd exact (by decide)

end NetTester

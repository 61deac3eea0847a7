import NetTester.DatagramLoss

namespace NetTester

/-- The network keeps the order of the datagrams. -/
def NetworkEvent.InOrder : NetworkEvent → Prop
  | .session _ _ (.complete (.received _ (.ok _))) place => place = 0
  | _ => True

/-- A side sends no empty datagram. -/
def NetworkEvent.Filled (x : Side) : NetworkEvent → Prop
  | .session y _ (.complete (.sent _ (.ok n))) _ => y = x → n ≠ 0
  | _ => True

/-- A send that has sent something is a datagram that is not empty. -/
theorem pushDatagrams_nonempty {s s' : Session} (sound : Sound s) {t : Nat} {e : Event}
    (hs : s.step (t, e) = some s') {x : Side} {place : Nat}
    (filled : (NetworkEvent.session x t e place).Filled x) : ∀ d ∈ s.pushDatagrams e, d ≠ [] := by
  intro d member
  unfold Session.pushDatagrams at member
  split at member
  next i n =>
    obtain ⟨call, _, _, bytes, _⟩ := completeSend_ok sound hs
    rw [List.mem_singleton.mp member, bytes]
    have some : n ≠ 0 := filled rfl
    simpa [SendCall.bytes] using some
  next => simp at member

/-- Taking an empty datagram out of the channel leaves the bytes on their way as they are. -/
theorem flatten_eraseIdx_nil {channel : List (List UInt8)} {place : Nat}
    (found : channel[place]? = some []) : (channel.eraseIdx place).flatten = channel.flatten := by
  induction channel generalizing place with
  | nil => simp at found
  | cons first rest ih =>
    cases place with
    | zero =>
      obtain rfl : first = [] := by simpa using found
      simp
    | succ place => simp [ih (by simpa using found)]

namespace DatagramNetwork

/-- The account of the bytes sent to a side when none of them was lost: what was delivered and what
is on its way are what the peer's socket accepted, in this order. No byte was objected to if the
datagrams are `full`, that is none of them is empty where only their first bytes are looked at. -/
structure Undamaged (full : Prop) (p : DatagramNetwork) (x : Side) (delivered : List UInt8)
    (counted : Nat) : Prop where
  delivery : Delivery (p.session x).configuration delivered counted (p.session x).receiveView
  split : (p.session x.other).acceptedBySocket = delivered ++ (p.channel x).flatten
  nonempty : full → (p.session x).configuration.verify = .first → ∀ d ∈ p.channel x, d ≠ []
  held : full → (p.session x).configuration.verify = .first →
    ∀ call n, (p.session x).receives = [⟨call, some (.ok n)⟩] → n ≠ 0
  silent : full → .tester .dataMismatch ∉ (p.session x).aborts

variable {c : Side → SessionConfiguration} {draws : Side → Nat → Nat} {p p' : DatagramNetwork}
  {x : Side} {t place : Nat} {e : Event} {delivered : List UInt8} {counted : Nat} {full : Prop}

namespace Undamaged

/-- The bytes that a handler is about to judge are those of the pattern. -/
theorem matching (h : Undamaged full p x delivered counted) (sound : Sound (p.session x.other))
    (filled : full) {slice size n : Nat}
    (ready : (p.session x).receives = [⟨⟨.onReceive slice, size⟩, some (.ok n)⟩]) :
    (p.session x).receiveView.mismatches (p.session x).configuration.verify n = 0 := by
  obtain ⟨exact, _⟩ := delivered_pattern sound h.split
  obtain ⟨length, held, _⟩ := h.delivery.held _ n ready
  refine mismatches_eq_zero _ h.delivery.counter (fun first => h.held filled first _ n ready) ?_
  intro i hi
  have at_i := held i hi
  rw [exact, pattern_getElem? (by omega)] at at_i
  exact (Option.some.inj at_i).symm

theorem silent_step (h : Undamaged full p x delivered counted) (sound : ∀ y, Sound (p.session y))
    (hs : (p.session x).step (t, e) = some (p'.session x)) (filled : full) :
    .tester .dataMismatch ∉ (p'.session x).aborts := by
  intro member
  rcases (Session.step_frame (sound x).tidy hs).reports.cause member with old | ⟨n, cause, positive⟩
  · exact h.silent filled old
  · obtain ⟨slice, size, k, ready, mismatch⟩ := (sound x).mismatch_cause cause positive
    exact mismatch (h.matching (sound x.other) filled ready)

/-- A side that takes the next datagram, all of which fits in its buffer. -/
theorem take (h : Undamaged full p x delivered counted) (sound : ∀ y, Sound (p.session y)) {i : Nat}
    {datagram : List UInt8} (found : (p.channel x)[0]? = some datagram)
    (hs : (p.session x).step (t, .complete (.received i (.ok datagram))) = some (p'.session x))
    (peer : p'.session x.other = p.session x.other)
    (channel : p'.channel x = (p.channel x).eraseIdx 0) :
    Undamaged full p' x (delivered ++ datagram) counted := by
  have configuration := (Session.step_frame (sound x).tidy hs).configuration
  obtain ⟨rest, first⟩ : ∃ rest, p.channel x = datagram :: rest := by
    cases hc : p.channel x with
    | nil => simp [hc] at found
    | cons d rest => exact ⟨rest, by simpa [hc] using found⟩
  have channel : p'.channel x = rest := by simpa [first] using channel
  cases h.delivery.step (sound x) hs with
  | count slice size n ready other => exact absurd rfl (other i _)
  | still other => exact absurd rfl (other i _)
  | surplus size n ready failed other => exact absurd rfl (other i _)
  | fill j data event call pending filled after =>
    simp only [Event.complete.injEq, Completion.received.injEq, Except.ok.injEq] at event
    obtain ⟨_, rfl⟩ := event
    refine ⟨configuration ▸ after, ?_, fun all start d member => ?_,
      fun all start call' n ready => ?_, h.silent_step sound hs⟩
    · rw [peer, h.split, channel, first, List.flatten_cons, List.append_assoc]
    · rw [channel] at member
      exact h.nonempty all (configuration ▸ start) d (by simp [first, member])
    · have some : datagram ≠ [] :=
        h.nonempty all (configuration ▸ start) datagram (by simp [first])
      simp only [filled, List.cons.injEq, Operation.mk.injEq, Option.some.injEq, Except.ok.injEq,
        and_true] at ready
      rw [← ready.2]
      simpa using some

/-- A side that takes no datagram. -/
theorem own (h : Undamaged full p x delivered counted) (sound : ∀ y, Sound (p.session y))
    (udp : (p.session x).configuration.protocol = .udp)
    (other : ∀ i data, e ≠ .complete (.received i (.ok data)))
    (hs : (p.session x).step (t, e) = some (p'.session x))
    (peer : p'.session x.other = p.session x.other) (channel : p'.channel x = p.channel x) :
    ∃ counted, Undamaged full p' x delivered counted := by
  have configuration := (Session.step_frame (sound x).tidy hs).configuration
  have split : (p'.session x.other).acceptedBySocket = delivered ++ (p'.channel x).flatten := by
    rw [peer, channel, h.split]
  have nonempty : full → (p'.session x).configuration.verify = .first →
      ∀ d ∈ p'.channel x, d ≠ [] := by
    rw [configuration, channel]
    exact h.nonempty
  have silent := h.silent_step sound hs
  cases h.delivery.step (sound x) hs with
  | fill i data event => exact absurd event (other i data)
  | count slice size n ready other report free after =>
    exact ⟨_, configuration ▸ after, split, nonempty,
      fun _ _ call k ready => absurd ready (free call k), silent⟩
  | still other same after =>
    refine ⟨_, configuration ▸ after, split, nonempty, fun filled start call k ready => ?_, silent⟩
    exact h.held filled (configuration ▸ start) call k ((same call k ready).trans ready)
  | surplus size n ready =>
    have stream := ((sound x).receive.probe ready).stream
    rw [udp] at stream
    cases stream

/-- A side whose peer takes a step, after which more may be on its way. -/
theorem other (h : Undamaged full p x.other delivered counted) (sound : Sound (p.session x))
    (hs : (p.session x).step (t, e) = some (p'.session x))
    (peer : p'.session x.other = p.session x.other) {sent : List (List UInt8)}
    (channel : p'.channel x.other = p.channel x.other ++ sent)
    (flatten : sent.flatten = (p.session x).push e)
    (nonempty : full → (p.session x.other).configuration.verify = .first → ∀ d ∈ sent, d ≠ []) :
    Undamaged full p' x.other delivered counted := by
  obtain ⟨delivery, split, some, held, silent⟩ := h
  rw [x.other_other] at split
  refine ⟨peer.symm ▸ delivery, ?_, fun filled start d member => ?_, peer.symm ▸ held,
    peer.symm ▸ silent⟩
  · rw [x.other_other, acceptedBySocket_step sound hs, split, channel, List.flatten_append, flatten,
      List.append_assoc]
  · rw [peer] at start
    rw [channel] at member
    exact (List.mem_append.mp member).elim (some filled start d) (nonempty filled start d)

end Undamaged

/-- As long as nothing that was sent to a side is lost, its account is undamaged. -/
def Faithful (full : Side → Prop) (p : DatagramNetwork) : Prop :=
  ∀ x, p.lost x = 0 → ∃ delivered counted, Undamaged (full x) p x delivered counted

theorem Faithful.step {full : Side → Prop} (h : Faithful full p) (balanced : Balanced c draws p)
    (udp : ∀ x, (c x).protocol = .udp) {event : NetworkEvent} (ordered : event.InOrder)
    (filled : ∀ x, full x → (c x).verify = .first → event.Filled x.other)
    (hp : p.step event = some p') : Faithful full p' := by
  have sound := balanced.sound
  cases step_cases hp with
  | lose x place datagram found session channel lost channel' lost' =>
    refine Side.forall_of x (fun whole => ?_) (fun whole => ?_)
    · -- Without a byte lost the datagram is an empty one, which leaves no gap.
      rw [lost] at whole
      obtain ⟨delivered, counted, account⟩ := h x (by omega)
      obtain ⟨delivery, split, nonempty, held, silent⟩ := account
      refine ⟨delivered, counted, session ▸ delivery, ?_, fun filled start d member => ?_,
        session ▸ held, session ▸ silent⟩
      · have empty : datagram = [] := List.eq_nil_of_length_eq_zero (by omega)
        rw [session, channel, split, flatten_eraseIdx_nil (empty ▸ found)]
      · rw [session] at start
        rw [channel] at member
        exact nonempty filled start d (List.mem_of_mem_eraseIdx member)
    · obtain ⟨delivered, counted, account⟩ := h x.other (lost' ▸ whole)
      obtain ⟨delivery, split, nonempty, held, silent⟩ := account
      refine ⟨delivered, counted, session ▸ delivery, by rw [session, channel', split], ?_,
        session ▸ held, session ▸ silent⟩
      rw [session, channel']
      exact nonempty
  | take x t i place datagram o found operation hs peer channel lost channel' lost' =>
    obtain rfl : place = 0 := ordered
    refine Side.forall_of x (fun whole => ?_) (fun whole => ?_)
    · rw [lost] at whole
      obtain ⟨delivered, counted, account⟩ := h x (by omega)
      rw [List.take_of_length_le (by omega)] at hs
      exact ⟨_, _, account.take sound found hs peer channel⟩
    · obtain ⟨delivered, counted, account⟩ := h x.other (lost' ▸ whole)
      have channel' : p'.channel x.other = p.channel x.other ++ [] := by simp [channel']
      exact ⟨delivered, counted, account.other (sound x) hs peer channel' rfl (by simp)⟩
  | session x t e place other hs peer channel channel' lost =>
    refine Side.forall_of x (fun whole => ?_) (fun whole => ?_)
    · obtain ⟨delivered, counted, account⟩ := h x (lost ▸ whole)
      have udp : (p.session x).configuration.protocol = .udp := balanced.configuration x ▸ udp x
      exact ⟨delivered, account.own sound udp other hs peer channel⟩
    · obtain ⟨delivered, counted, account⟩ := h x.other (lost ▸ whole)
      refine ⟨delivered, counted, account.other (sound x) hs peer channel'
        (DatagramPair.pushDatagrams_flatten _ _) fun full start => ?_⟩
      rw [balanced.configuration] at start
      have filled := filled x.other full start
      rw [x.other_other] at filled
      exact pushDatagrams_nonempty (sound x) hs filled

theorem Faithful.of_run (accepted : ∀ x, Accepted (c x)) (udp : ∀ x, (c x).protocol = .udp)
    {now : Side → Nat} {events : List NetworkEvent} (ordered : ∀ event ∈ events, event.InOrder)
    (full : Side → Prop)
    (filled : ∀ x, full x → (c x).verify = .first → ∀ event ∈ events, event.Filled x.other)
    (reach : Machine.run DatagramNetwork.step (.create c draws now) events = some p) :
    Faithful full p := by
  refine Machine.run_induction (fun events p => (∀ event ∈ events, event.InOrder) →
    (∀ x, full x → (c x).verify = .first → ∀ event ∈ events, event.Filled x.other) →
    Faithful full p) ?_ ?_ reach ordered filled
  · intro _ _ x _
    exact ⟨[], 0, .of_idle rfl (by simp [DatagramNetwork.create, Session.create,
      Session.receiveView]) rfl, rfl, by simp [DatagramNetwork.create],
      by simp [DatagramNetwork.create, Session.create],
      by simp [DatagramNetwork.create, Session.create, Session.aborts]⟩
  · intro events p event p' reach faithful hp ordered filled
    have before := faithful (fun event member => ordered event (List.mem_append_left _ member))
      fun x full start event member => filled x full start event (List.mem_append_left _ member)
    exact before.step (Balanced.of_run accepted udp reach) udp (ordered event (by simp))
      (fun x full start => filled x full start event (by simp)) hp

end DatagramNetwork

/-- On a network that keeps the order of the datagrams, two datagram sessions of any configurations
accuse each other of corrupted data only where something was lost or cut off: as long as every byte
sent to a side has come to it or is on its way, what is on its way goes on with the pattern where
its count stands, whatever timers, signals and failures do, and the side reports no mismatch. One
that looks at first bytes only does so of an empty datagram, too, so that its peer must send
none. -/
theorem datagrams_true {c : Side → SessionConfiguration} (accepted : ∀ x, Accepted (c x))
    (udp : ∀ x, (c x).protocol = .udp) {draws : Side → Nat → Nat} {now : Side → Nat}
    {events : List NetworkEvent} (ordered : ∀ event ∈ events, event.InOrder)
    {p : DatagramNetwork}
    (reach : Machine.run DatagramNetwork.step (.create c draws now) events = some p) {x : Side}
    (whole : p.lost x = 0) :
    (p.session x.other).acceptedBySocket =
        pattern ((p.session x).statistics.receivedBytesCount.value + (p.session x).heldBytes) ++
          (p.channel x).flatten ∧
      (((c x).verify = .first → ∀ event ∈ events, event.Filled x.other) →
        Call.abort (.tester .dataMismatch) ∉ (p.session x).calls ∧
        (p.session x).finalize ≠ some (.tester .dataMismatch)) := by
  have balanced := DatagramNetwork.Balanced.of_run accepted udp reach
  have sound := balanced.sound
  obtain ⟨delivered, counted, account⟩ := DatagramNetwork.Faithful.of_run accepted udp ordered
    (fun x => (c x).verify = .first → ∀ event ∈ events, event.Filled x.other)
    (fun x filled first => filled first) reach x whole
  refine ⟨?_, fun filled => ⟨fun called => ?_, fun failed => ?_⟩⟩
  · have length := account.delivery.length (sound x).tidy.receives
    have counter : (p.session x).statistics.receivedBytesCount.value = counted % 2 ^ 64 :=
      account.delivery.counter
    obtain ⟨exact, within⟩ := delivered_pattern (sound x.other) account.split
    have bounded := (p.session x.other).configuration.size.bounded
    have same : delivered.length =
        (p.session x).statistics.receivedBytesCount.value + (p.session x).heldBytes := by omega
    rw [account.split, ← same, ← exact]
  · exact account.silent filled (List.mem_filterMap.mpr ⟨_, called, rfl⟩)
  · exact account.silent filled (List.mem_of_head? ((sound x).ending.failure.symm.trans failed))

/-- The sessions of `oneDatagram`, whose receiver verifies its byte. -/
def verifiedDatagram (x : Side) : SessionConfiguration := { oneDatagram x with verify := .first }

theorem datagrams_true_one : ∃ p, Machine.run DatagramNetwork.step
    (.create verifiedDatagram (fun _ _ => 0) (fun _ => 0)) (sendOneDatagram ++ receiveOneDatagram) =
      some p ∧ (p.session .right).statistics.receivedBytesCount.value = 1 ∧
    Call.abort (.tester .dataMismatch) ∉ (p.session .right).calls := by
  refine Machine.exists_run
    (fun p => (p.lost .right, (p.session .right).statistics.receivedBytesCount.value))
    (b := (0, 1)) (by decide +kernel) ?_
  intro p reach observed
  obtain ⟨whole, counted⟩ := Prod.mk.inj observed
  have ordered : ∀ event ∈ sendOneDatagram ++ receiveOneDatagram, event.InOrder := by
    simp [sendOneDatagram, receiveOneDatagram, NetworkEvent.InOrder]
  have filled : ∀ event ∈ sendOneDatagram ++ receiveOneDatagram, event.Filled .left := by
    simp [sendOneDatagram, receiveOneDatagram, NetworkEvent.Filled]
  exact ⟨counted, ((datagrams_true
    (Side.forall_of .left (accepted_iff.mpr (by decide)) (accepted_iff.mpr (by decide)))
    (fun _ => rfl) ordered reach whole).2 fun _ => filled).1⟩

end NetTester

import NetTester.SendPattern
import NetTester.SendSlices

namespace NetTester

/-- What the slice that a position of the transfer belongs to still holds from there on. -/
def SessionConfiguration.sliceRest (c : SessionConfiguration) (p : Nat) : Nat :=
  min ((p / c.sendSlice + 1) * c.sendSlice) c.size.value - p

/-- The largest datagram of every position fits the send buffer from the offset of the position. -/
def DatagramsFit (c : SessionConfiguration) : Prop :=
  ∀ p < c.size.value, p % 2 ^ 8 + min c.packetSize.high.value (c.sliceRest p) ≤ bufferSize

/-- The values that the random distribution yields are in its range. -/
def DrawsWithin (c : SessionConfiguration) (draws : Nat → Nat) : Prop :=
  ∀ k, c.packetSize.low.value ≤ draws k ∧ draws k ≤ c.packetSize.high.value

variable {c : SessionConfiguration} {draws : Nat → Nat} {now : Nat} {v w : SendView}

theorem datagramsFit_of_size (h : c.size.value ≤ bufferSize) : DatagramsFit c := by
  intro p short
  have rest : c.sliceRest p ≤ c.size.value - p := Nat.sub_le_sub_right (Nat.min_le_right _ _) p
  omega

/-- The slices released so far end where the slice of the next byte does, or before. -/
theorem Lagged.released_le (h : Lagged c v) :
    v.throttle.firings.length * c.sendSlice ≤
      (v.sent.value / c.sendSlice + 1) * c.sendSlice := by
  rcases Nat.eq_zero_or_pos c.sendSlice with zero | positive
  · simp [zero]
  · have behind := (Nat.le_div_iff_mul_le positive).mpr h.behind
    exact Nat.mul_le_mul_right _ (by omega)

/-- A chain that asks for no more than it was released passes the assertion. -/
theorem SendAsk.alive {slice : Nat} (ask : SendAsk c draws slice v w) (lagged : Lagged c w)
    (fit : DatagramsFit c) (within : DrawsWithin c draws)
    (short : v.sent.value < c.size.value)
    (released : v.sent.value + min slice (c.size.value - v.sent.value) ≤
      v.throttle.firings.length * c.sendSlice)
    (alive : v.assertionFailed = false) : w.assertionFailed = false := by
  have left : sub64 c.size.value v.sent.value = c.size.value - v.sent.value :=
    sub64_of_le short.le c.size.bounded
  cases ask with
  | wait => exact alive
  | offer => exact alive
  | assertion udp m drawn outside =>
    have bound := lagged.released_le
    have room := fit v.sent.value short
    have high := (drawn.within within).2
    rw [left] at outside
    simp only [SessionConfiguration.sliceRest] at room bound
    omega

theorem SendMove.alive {s s' : Session} {t : Nat} {e : Event} (move : SendMove s t e s')
    (h : SendChain s.configuration s.draws s.now (s.failure ≠ none) s.sendView)
    (lagged : Lagged s.configuration s'.sendView) (fit : DatagramsFit s.configuration)
    (within : DrawsWithin s.configuration s.draws) (alive : s.sendView.assertionFailed = false) :
    s'.sendView.assertionFailed = false := by
  cases move with
  | still view => exact view ▸ alive
  | start unstarted used view => exact view ▸ alive
  | startUnused unstarted unused view => exact view ▸ alive
  | expire x waits due view => exact view ▸ alive
  | slice x waits view =>
    have waiting := h.wait waits
    obtain ⟨spent, bytes⟩ := waiting.spent
    refine view.alive lagged fit within waiting.short ?_ alive
    simp only [BandwidthThrottle.startSlice, List.length_append, List.length_singleton,
      Nat.succ_mul]
    calc
      _ ≤ s.sendView.sent.value + s.sendView.throttle.sliceBytesCount :=
        Nat.add_le_add_left (Nat.min_le_left _ _) _
      _ = _ := by rw [spent, bytes]; rfl
  | cancelled x f waits =>
    have result := (h.wait waits).result
    simp at result
  | fill i n call event pending fits view => exact view ▸ alive
  | fail i f call event pending failed view => exact view ▸ alive
  | resume call n ready short view =>
    have sending := h.slice ready
    obtain ⟨start, budget⟩ := sending.budget
    have sum : (s.statistics.sentBytesCount.add n).value = s.sendView.sent.value + n :=
      sending.sum.1
    have fits := sending.fits n rfl
    have inSlice := sending.offer.inSlice
    have size := s.configuration.size.bounded
    have within' := budget.budget
    rw [sub64_of_le (by omega) (by omega)] at view
    refine view.alive lagged fit within short ?_ alive
    have bytes : s.sendView.throttle.sliceBytesCount = s.configuration.sendSlice :=
      budget.throttled.bytes
    rw [bytes] at within'
    change (s.statistics.sentBytesCount.add n).value + _ ≤
      s.sendView.throttle.firings.length * s.configuration.sendSlice
    omega
  | finish call n ready full view => exact view ▸ alive
  | aborted call ready =>
    have live := (h.slice ready).live
    exact absurd (live _ rfl) (by decide)
  | stop call f ready view => exact view ▸ alive

/-- With datagrams that fit, no run reaches a failed assertion, and what is handed to the socket
ends within the buffer. -/
theorem datagrams_inside {c : SessionConfiguration} (accepted : Accepted c)
    (fit : DatagramsFit c) {draws : Nat → Nat} (within : DrawsWithin c draws) {now : Nat}
    {events : List (Nat × Event)} {s : Session} (reach : Session.Reaches c draws now events s) :
    s.assertionFailed = false ∧
      ∀ o ∈ s.sends, o.handler.offset + o.handler.size ≤ bufferSize := by
  suffices Sound s ∧ (s.configuration = c ∧ s.draws = draws) ∧ Lagged c s.sendView ∧
      s.assertionFailed = false from ⟨this.2.2.2, this.1.send.inBuffer⟩
  refine Machine.run_invariant (fun s => Sound s ∧ (s.configuration = c ∧ s.draws = draws) ∧
    Lagged c s.sendView ∧ s.assertionFailed = false) ?_ ?_ reach
  · rintro s ⟨t, e⟩ s' ⟨sound, ⟨rfl, rfl⟩, lagged, alive⟩ hs
    have frame := Session.step_frame sound.tidy hs
    have move := Session.step_sendMove sound.tidy hs
    have lagged' := move.lagged sound.send lagged
    exact ⟨sound.step hs, ⟨frame.configuration, frame.draws⟩, lagged',
      move.alive sound.send lagged' fit within alive⟩
  · exact ⟨Sound.create accepted draws now, ⟨rfl, rfl⟩, .create c draws now, rfl⟩

/-- A session that sends its data in datagrams of a single size, as large as its size. -/
def largeDatagram (size : Nat) (bounded : size < 2 ^ 64) : SessionConfiguration :=
  { defaultConfiguration "127.0.0.1:1234" ⟨size, .iec, bounded⟩ with
    direction := .tx
    sendBandwidth := ⟨2 ^ 30, .iec, by decide⟩
    packetSize := ⟨⟨size, .iec, bounded⟩, ⟨size, .iec, bounded⟩⟩
    protocol := .udp }

theorem largeDatagram_within (size : Nat) (bounded : size < 2 ^ 64) :
    DrawsWithin (largeDatagram size bounded) (fun _ => size) :=
  fun _ => ⟨Nat.le_refl size, Nat.le_refl size⟩

def offerDatagram : List (Nat × Event) :=
  [(0, .invoke (.posted 0)), (0, .complete (.sendSlice 0)), (0, .invoke (.sendThrottle 0))]

theorem datagrams_inside_whole : ∃ s,
    Session.Reaches (largeDatagram 131072 (by decide)) (fun _ => 131072) 0 offerDatagram s ∧
      s.assertionFailed = false ∧
      ∀ o ∈ s.sends, o.handler.offset + o.handler.size ≤ bufferSize := by
  have reached : (Machine.run Session.step (.create (largeDatagram 131072 (by decide))
      (fun _ => 131072) 0) offerDatagram).isSome = true := by decide +kernel
  obtain ⟨s, reach⟩ := Option.isSome_iff_exists.mp reached
  exact ⟨s, reach, datagrams_inside (accepted_iff.mpr (by decide))
    (datagramsFit_of_size (by decide)) (largeDatagram_within _ _) reach⟩

/-- A datagram that is larger than the buffer. -/
theorem datagram_outside : ¬∀ c : SessionConfiguration, Accepted c → c.protocol = .udp →
    c.direction ≠ .rx → ∀ draws : Nat → Nat, DrawsWithin c draws →
    ∀ (now : Nat) (events : List (Nat × Event)) (s : Session),
      Session.Reaches c draws now events s → s.assertionFailed = false := by
  intro claim
  have reached : (Machine.run Session.step (.create (largeDatagram 200000 (by decide))
      (fun _ => 200000) 0) offerDatagram).map Session.assertionFailed = some true := by
    decide +kernel
  obtain ⟨s, reach, failed⟩ := Option.map_eq_some_iff.mp reached
  have alive := claim _ (accepted_iff.mpr (by decide)) rfl (by decide) _
    (largeDatagram_within _ _) _ _ _ reach
  simp [failed] at alive

end NetTester

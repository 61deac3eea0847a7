import NetTester.Sound

namespace NetTester

/-- What a second slice can still hold of the transfer takes a slice at the configured bandwidth. -/
def sendKeepsPace (c : SessionConfiguration) : Prop :=
  let slice :=
    BandwidthThrottle.toSliceBytesCount c.sendBandwidth.value c.bandwidthSamplingFrequency
  c.direction = .rx ∨ (min (2 * slice) c.size.value - slice) * 10 ^ 9 ≤
    c.sendBandwidth.value * BandwidthThrottle.toSliceDuration c.bandwidthSamplingFrequency

/-- The same of the receiving side, whose last buffer may take more than the size. -/
def receiveKeepsPace (c : SessionConfiguration) : Prop :=
  let slice :=
    BandwidthThrottle.toSliceBytesCount c.receiveBandwidth.value c.bandwidthSamplingFrequency
  c.direction = .tx ∨ c.size.value ≤ slice ∨
    (min (2 * slice) (c.size.value + bufferSize - 1) - slice) * 10 ^ 9 ≤
      c.receiveBandwidth.value * BandwidthThrottle.toSliceDuration c.bandwidthSamplingFrequency

/-- The bytes are within one slice of what the bandwidth allows for the nanoseconds elapsed. -/
def WithinRate (bandwidth samplingFrequency elapsed bytes : Nat) : Prop :=
  bytes * 10 ^ 9 ≤ bandwidth * elapsed +
    BandwidthThrottle.toSliceBytesCount bandwidth samplingFrequency * 10 ^ 9

variable {c : SessionConfiguration} {draws : Nat → Nat} {now start : Nat} {failed : Prop}

theorem Throttled.elapsed {bandwidth frequency : Nat} {throttle : BandwidthThrottle}
    (h : Throttled bandwidth frequency start now throttle) :
    (throttle.firings.length - 1) * throttle.sliceDuration ≤ now - start := by
  rcases eq_or_ne throttle.firings [] with none | some
  · simp [none]
  · have := h.paced.length_le h.past some
    omega

theorem SendBudget.rate {v : SendView} {remaining : Nat} (h : SendBudget c now v start remaining)
    (used : c.direction ≠ .rx) (pace : sendKeepsPace c) :
    WithinRate c.sendBandwidth.value c.bandwidthSamplingFrequency (now - start) v.sent.value := by
  have budget := h.budget
  have elapsed := h.throttled.elapsed
  rw [h.throttled.bytes] at budget
  rw [h.throttled.duration] at elapsed
  exact Pacing.rate_bound (k := v.throttle.firings.length) (by omega) h.sent_le elapsed
    (pace.resolve_left used)

theorem SendChain.rate {v : SendView} (h : SendChain c draws now failed v)
    (date : v.startDate = some start) (pace : sendKeepsPace c) :
    WithinRate c.sendBandwidth.value c.bandwidthSamplingFrequency (now - start) v.sent.value := by
  by_cases unused : c.direction = .rx
  · simp [WithinRate, h.unused_sent unused]
  · obtain ⟨remaining, budget⟩ := h.budgeted date unused
    exact budget.rate unused pace

theorem ReceiveBudget.rate {v : ReceiveView} {total remaining : Nat}
    (h : ReceiveBudget c now v start total remaining) (used : c.direction ≠ .tx)
    (pace : receiveKeepsPace c) :
    WithinRate c.receiveBandwidth.value c.bandwidthSamplingFrequency (now - start)
      v.received.value := by
  have budget := h.budget
  have counter := h.counter
  have overshoot := h.overshoot
  have elapsed := h.throttled.elapsed
  have second := h.second
  have counted : v.received.value ≤ total := counter ▸ Nat.mod_le _ _
  rw [h.throttled.bytes] at budget second
  rw [h.throttled.duration] at elapsed
  rcases pace.resolve_left used with whole | slow
  · -- A slice that covers the size is the only one.
    have few : v.throttle.firings.length ≤ 1 := by
      by_contra many
      exact absurd (second (by omega)) (Nat.not_lt.mpr whole)
    have first := Nat.mul_le_mul_right (BandwidthThrottle.toSliceBytesCount
      c.receiveBandwidth.value c.bandwidthSamplingFrequency) few
    exact (Nat.mul_le_mul_right _ (by omega)).trans (Nat.le_add_left _ _)
  · exact Pacing.rate_bound (k := v.throttle.firings.length) (by omega) (by omega) elapsed slow

theorem ReceiveChain.rate {v : ReceiveView} (h : ReceiveChain c now failed v)
    (date : v.startDate = some start) (pace : receiveKeepsPace c) :
    WithinRate c.receiveBandwidth.value c.bandwidthSamplingFrequency (now - start)
      v.received.value := by
  by_cases unused : c.direction = .tx
  · simp [WithinRate, h.unused_received unused]
  · obtain ⟨total, remaining, budget⟩ := h.budgeted date unused
    exact budget.rate unused pace

/-- In seconds and exact arithmetic. -/
theorem withinRate_iff {bandwidth samplingFrequency elapsed bytes : Nat} :
    WithinRate bandwidth samplingFrequency elapsed bytes ↔
      (bytes : ℚ) ≤ bandwidth * ((elapsed : ℚ) / 10 ^ 9) +
        BandwidthThrottle.toSliceBytesCount bandwidth samplingFrequency := by
  unfold WithinRate
  rw [← Nat.cast_le (α := ℚ)]
  push_cast
  constructor
  · intro h
    linarith
  · intro h
    linarith

/-- A sampling frequency that divides a second keeps the pace at any bandwidth. -/
theorem keepsPace_of_dvd (c : SessionConfiguration) (h : c.bandwidthSamplingFrequency ∣ 10 ^ 9) :
    sendKeepsPace c ∧ receiveKeepsPace c := by
  obtain ⟨duration, second⟩ := h
  have positive : 0 < c.bandwidthSamplingFrequency := by
    rcases Nat.eq_zero_or_pos c.bandwidthSamplingFrequency with zero | positive
    · rw [zero, Nat.zero_mul] at second
      omega
    · exact positive
  have exact : BandwidthThrottle.toSliceDuration c.bandwidthSamplingFrequency = duration := by
    unfold BandwidthThrottle.toSliceDuration
    rw [show 1000 * 1000 * 1000 = c.bandwidthSamplingFrequency * duration from second,
      Nat.mul_div_cancel_left _ positive]
  have pace : ∀ bandwidth limit,
      (min (2 * BandwidthThrottle.toSliceBytesCount bandwidth c.bandwidthSamplingFrequency) limit -
          BandwidthThrottle.toSliceBytesCount bandwidth c.bandwidthSamplingFrequency) * 10 ^ 9 ≤
        bandwidth * duration := by
    intro bandwidth limit
    unfold BandwidthThrottle.toSliceBytesCount
    calc
      (min (2 * (bandwidth / c.bandwidthSamplingFrequency)) limit -
            bandwidth / c.bandwidthSamplingFrequency) * 10 ^ 9
          ≤ bandwidth / c.bandwidthSamplingFrequency * 10 ^ 9 :=
        Nat.mul_le_mul_right _ (by omega)
      _ = bandwidth / c.bandwidthSamplingFrequency * c.bandwidthSamplingFrequency * duration := by
        rw [second]
        ring
      _ ≤ bandwidth * duration := Nat.mul_le_mul_right _ (Nat.div_mul_le_self _ _)
  exact ⟨.inr (exact ▸ pace _ _), .inr (.inr (exact ▸ pace _ _))⟩

/-- The transfer stays within both bandwidths where each slice duration, rounded down, still has
room for the slice. -/
theorem bandwidths_limited {c : SessionConfiguration} (accepted : Accepted c)
    (sending : sendKeepsPace c) (receiving : receiveKeepsPace c) {draws : Nat → Nat}
    {now start : Nat} {events : List (Nat × Event)} {s : Session}
    (reach : Session.Reaches c draws now events s)
    (started : s.statistics.startDate = some start) :
    (s.statistics.sentBytesCount.value : ℚ) ≤
        c.sendBandwidth.value * (((s.now - start : Nat) : ℚ) / 10 ^ 9) +
          BandwidthThrottle.toSliceBytesCount c.sendBandwidth.value
            c.bandwidthSamplingFrequency ∧
      (s.statistics.receivedBytesCount.value : ℚ) ≤
        c.receiveBandwidth.value * (((s.now - start : Nat) : ℚ) / 10 ^ 9) +
          BandwidthThrottle.toSliceBytesCount c.receiveBandwidth.value
            c.bandwidthSamplingFrequency := by
  obtain ⟨sound, rfl, rfl⟩ := Sound.of_reaches accepted reach
  exact ⟨withinRate_iff.mp (sound.send.rate started sending),
    withinRate_iff.mp (sound.receive.rate started receiving)⟩

/-- At 1000 Hz the slices of the default bandwidth are exact. -/
theorem bandwidths_limited_default : ∃ s, Session.Reaches
    (defaultConfiguration "127.0.0.1:1234" ⟨2, .iec, by decide⟩) (fun _ => 0) 0
    [(0, .complete (.opened 0 none)), (0, .invoke (.onConnect 0)), (0, .complete (.sendSlice 0)),
      (0, .invoke (.sendThrottle 0)), (0, .complete (.sent 0 (.ok 1))), (0, .invoke (.onSend 0))]
    s ∧ (s.statistics.sentBytesCount.value : ℚ) ≤
      128000000 * (((s.now - 0 : Nat) : ℚ) / 10 ^ 9) + 128000 := by
  refine Machine.exists_run (fun s => s.statistics.startDate) (b := some 0) rfl ?_
  intro s reach started
  have pace := keepsPace_of_dvd (defaultConfiguration "127.0.0.1:1234" ⟨2, .iec, by decide⟩)
    (by decide)
  exact (bandwidths_limited (accepted_default _ (by decide)) pace.1 pace.2 reach started).1

/-- Two slices of one byte, a nanosecond apart, where the frequency gives each more than that. -/
theorem bandwidth_exceeded : ¬∀ (c : SessionConfiguration) (_ : Accepted c) (draws : Nat → Nat)
    (now start : Nat) (events : List (Nat × Event)) (s : Session)
    (_ : Session.Reaches c draws now events s) (_ : s.statistics.startDate = some start),
    (s.statistics.sentBytesCount.value : ℚ) ≤
        c.sendBandwidth.value * (((s.now - start : Nat) : ℚ) / 10 ^ 9) +
          BandwidthThrottle.toSliceBytesCount c.sendBandwidth.value
            c.bandwidthSamplingFrequency ∧
      (s.statistics.receivedBytesCount.value : ℚ) ≤
        c.receiveBandwidth.value * (((s.now - start : Nat) : ℚ) / 10 ^ 9) +
          BandwidthThrottle.toSliceBytesCount c.receiveBandwidth.value
            c.bandwidthSamplingFrequency := by
  intro claim
  let c : SessionConfiguration :=
    { defaultConfiguration "127.0.0.1:1234" ⟨2, .iec, by decide⟩ with
      sendBandwidth := ⟨600000000, .si, by decide⟩, bandwidthSamplingFrequency := 600000000 }
  obtain ⟨s, reach, started, sent, now⟩ : ∃ s, Session.Reaches c (fun _ => 0) 0
      [(0, .complete (.opened 0 none)), (0, .invoke (.onConnect 0)), (0, .complete (.sendSlice 0)),
        (0, .invoke (.sendThrottle 0)), (0, .complete (.sent 0 (.ok 1))), (0, .invoke (.onSend 0)),
        (1, .complete (.sendSlice 0)), (1, .invoke (.sendThrottle 0)),
        (1, .complete (.sent 0 (.ok 1))), (1, .invoke (.onSend 0))]
      s ∧ s.statistics.startDate = some 0 ∧ s.statistics.sentBytesCount.value = 2 ∧ s.now = 1 := by
    refine Machine.exists_run (fun s => (s.statistics.startDate,
      s.statistics.sentBytesCount.value, s.now)) (b := (some 0, 2, 1)) (by decide +kernel) ?_
    intro s reach observed
    simpa only [Prod.mk.injEq] using observed
  have limit := (claim c (accepted_iff.mpr (by decide)) _ _ _ _ s reach started).1
  have slice : BandwidthThrottle.toSliceBytesCount c.sendBandwidth.value
      c.bandwidthSamplingFrequency = 1 := by decide
  have bandwidth : c.sendBandwidth.value = 600000000 := rfl
  rw [sent, now, slice, bandwidth] at limit
  norm_num at limit

end NetTester

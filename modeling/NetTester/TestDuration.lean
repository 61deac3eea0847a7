import Mathlib.Algebra.Order.Floor.Div
import NetTester.SendSlices

namespace NetTester

namespace SessionConfiguration

/-- The nanoseconds from one slice to the next. -/
def sliceDuration (c : SessionConfiguration) : Nat :=
  BandwidthThrottle.toSliceDuration c.bandwidthSamplingFrequency

/-- The nanoseconds in which the send throttle releases all the data: the first slice is released at
once. -/
def releaseDuration (c : SessionConfiguration) : Nat :=
  (c.size.value ⌈/⌉ c.sendSlice - 1) * c.sliceDuration

/-- The microseconds of a tenth more than the seconds that the transfer is begun in. -/
def marginDuration (c : SessionConfiguration) : Nat :=
  (c.size.value / c.sendBandwidth.value + 1) * 1100000

end SessionConfiguration

open Session

variable {c : SessionConfiguration}

/-- A send throttle releases all the data in no less than that. -/
theorem SendBudget.releaseDuration_le {v : SendView} {now start remaining : Nat}
    (h : SendBudget c now v start remaining) (full : v.sent.value = c.size.value) :
    c.releaseDuration ≤ now - start := by
  have elapsed := h.throttled.elapsed
  have budget := h.budget
  rw [h.throttled.duration] at elapsed
  rw [h.throttled.bytes] at budget
  refine le_trans (Nat.mul_le_mul_right _ (Nat.sub_le_sub_right ?_ 1)) elapsed
  rcases Nat.eq_zero_or_pos c.sendSlice with zero | positive
  · simp [zero]
  · rw [ceilDiv_le_iff_le_mul positive, Nat.mul_comm]
    have : c.size.value ≤ v.throttle.firings.length * c.sendSlice := by
      unfold SessionConfiguration.sendSlice
      omega
    exact this

theorem releaseDuration_le_elapsed (accepted : Accepted c) {draws : Nat → Nat} {now start : Nat}
    {events : List (Nat × Event)} {s : Session} (reach : Session.Reaches c draws now events s)
    (used : c.direction ≠ .rx) (started : s.statistics.startDate = some start)
    (full : s.statistics.sentBytesCount.value = c.size.value) :
    c.releaseDuration ≤ s.now - start := by
  obtain ⟨sound, rfl, _⟩ := Sound.of_reaches accepted reach
  obtain ⟨remaining, budget⟩ := sound.send.budgeted started used
  exact budget.releaseDuration_le full

/-- The estimate with the default margin, when the session's own bandwidth is the smaller one. -/
theorem estimateTestDuration_eq (margin : c.durationMargin = none)
    (slower : c.sendBandwidth.value ≤ c.receiveBandwidth.value)
    (positive : c.sendBandwidth.value ≠ 0) {k : Nat}
    (seconds : (c.size.value / c.sendBandwidth.value + 1) % 2 ^ 64 = k) :
    estimateTestDuration c =
      if k * 1100000 < 2 ^ 63 then some ((k * 1100000 : Nat) : Int) else none := by
  unfold estimateTestDuration ticks
  simp only [Nat.min_eq_right slower, margin, Option.getD_none, seconds, if_neg positive]
  have tenth : (k * 1000000 : Int) / 10 = k * 100000 := by omega
  split
  next fits =>
    rw [Option.bind_some, tenth]
    split
    next =>
      rw [if_pos (by omega), Option.some.injEq]
      push_cast
      ring
    next => rw [if_neg (by omega)]
  next large => rw [if_neg (by omega), Option.bind_none]

theorem ceilDiv_le_succ_iff {n s x d : Nat} (slice : s ≠ 0) :
    (n ⌈/⌉ s - 1) * d ≤ x ↔ (d ≠ 0 → n ≤ s * (x / d + 1)) := by
  rcases Nat.eq_zero_or_pos d with rfl | positive
  · simp
  · rw [← Nat.le_div_iff_mul_le positive, Nat.sub_le_iff_le_add, ceilDiv_le_iff_le_mul (by omega)]
    simp [positive.ne']

/-- Slices that lose no more than an eleventh of the bandwidth keep within the margin whatever the
size. -/
theorem size_le_of_margin {size bandwidth slice period : Nat} (positive : bandwidth ≠ 0)
    (margin : bandwidth * period ≤ slice * 1100000000) :
    period ≠ 0 → size ≤ slice * (1000 * ((size / bandwidth + 1) * 1100000) / period + 1) := by
  intro nonzero
  have begun : size ≤ bandwidth * (size / bandwidth + 1) :=
    (Nat.lt_mul_div_succ size (Nat.pos_of_ne_zero positive)).le
  generalize size / bandwidth + 1 = k at begun ⊢
  have whole := Nat.lt_mul_div_succ (1000 * (k * 1100000)) (Nat.pos_of_ne_zero nonzero)
  refine Nat.le_of_mul_le_mul_right ?_ (Nat.pos_of_ne_zero nonzero)
  calc
    size * period ≤ bandwidth * k * period := Nat.mul_le_mul_right period begun
    _ = bandwidth * period * k := by ring
    _ ≤ slice * 1100000000 * k := Nat.mul_le_mul_right k margin
    _ = slice * (1000 * (k * 1100000)) := by ring
    _ ≤ slice * (period * (1000 * (k * 1100000) / period + 1)) :=
      Nat.mul_le_mul_left slice whole.le
    _ = slice * (1000 * (k * 1100000) / period + 1) * period := by ring

/-- The time that the test is allowed is enough for the throttle exactly when the slices that it
releases in a tenth more than the seconds begun hold all the data. -/
theorem estimate_covers_iff (accepted : Accepted c) (margin : c.durationMargin = none)
    (slower : c.sendBandwidth.value ≤ c.receiveBandwidth.value)
    (sampled : c.bandwidthSamplingFrequency ≤ c.sendBandwidth.value) :
    (∃ duration, estimateTestDuration c = some duration ∧ c.releaseDuration ≤ 1000 * duration) ↔
      c.marginDuration < 2 ^ 63 ∧ (c.sliceDuration ≠ 0 →
        c.size.value ≤ c.sendSlice * (1000 * c.marginDuration / c.sliceDuration + 1)) := by
  have frequency := (accepted_iff.mp accepted).1
  have bounded := c.size.bounded
  have slice : c.sendSlice ≠ 0 := (Nat.div_pos sampled (Nat.pos_of_ne_zero frequency)).ne'
  have estimate := estimateTestDuration_eq margin slower (by omega) rfl
  rw [← ceilDiv_le_succ_iff slice, ← SessionConfiguration.releaseDuration]
  rcases Nat.lt_or_ge (c.size.value / c.sendBandwidth.value + 1) (2 ^ 64) with fits | wraps
  · rw [Nat.mod_eq_of_lt fits, ← SessionConfiguration.marginDuration] at estimate
    rw [estimate]
    split
    next short =>
      simp only [Option.some.injEq, exists_eq_left', short, true_and]
      norm_cast
    next long =>
      constructor
      · rintro ⟨_, impossible, _⟩
        cases impossible
      · rintro ⟨short, _⟩
        exact absurd short long
  · -- Only the largest size at one byte a second has a count of seconds that wraps.
    have single : c.sendBandwidth.value = 1 := by
      by_contra other
      have half : c.size.value / c.sendBandwidth.value ≤ c.size.value / 2 :=
        Nat.div_le_div_left (by omega) (by decide)
      omega
    rw [single, Nat.div_one] at wraps
    have one : c.bandwidthSamplingFrequency = 1 := by omega
    have release : c.releaseDuration = (2 ^ 64 - 2) * 10 ^ 9 := by
      rw [SessionConfiguration.releaseDuration, SessionConfiguration.sendSlice,
        SessionConfiguration.sliceDuration, single, one, show c.size.value = 2 ^ 64 - 1 by omega]
      decide
    rw [single, Nat.div_one, show c.size.value + 1 = 2 ^ 64 by omega] at estimate
    rw [estimate, release, SessionConfiguration.marginDuration, single, Nat.div_one]
    constructor
    · rintro ⟨duration, none, covers⟩
      obtain rfl : (0 : Int) = duration := Option.some.inj none
      simp at covers
    · rintro ⟨short, _⟩
      omega

theorem estimate_covers_default : ∃ duration,
    estimateTestDuration (defaultConfiguration "127.0.0.1:1234" ⟨2 ^ 40, .iec, by decide⟩) =
      some duration ∧
    (defaultConfiguration "127.0.0.1:1234" ⟨2 ^ 40, .iec, by decide⟩).releaseDuration ≤
      1000 * duration :=
  (estimate_covers_iff (accepted_default _ (by decide)) rfl (Nat.le_refl _) (by decide)).mpr
    ⟨by decide, size_le_of_margin (by decide) (by decide)⟩

/-- At 1500 bytes a second and a thousand slices a second, a slice holds one byte only. -/
theorem estimate_short : ¬∀ c : SessionConfiguration, Accepted c → c.direction ≠ .rx →
    c.durationMargin = none → c.sendBandwidth.value ≤ c.receiveBandwidth.value →
    c.bandwidthSamplingFrequency ≤ c.sendBandwidth.value →
    ∃ duration, estimateTestDuration c = some duration ∧ c.releaseDuration ≤ 1000 * duration := by
  intro claim
  let c : SessionConfiguration :=
    { defaultConfiguration "127.0.0.1:1234" ⟨100000, .si, by decide⟩ with
      sendBandwidth := ⟨1500, .si, by decide⟩ }
  obtain ⟨duration, estimate, covers⟩ :=
    claim c (accepted_iff.mpr (by decide)) (by decide) rfl (by decide) (by decide)
  have estimated : estimateTestDuration c = some 73700000 := by decide
  rw [estimated, Option.some.injEq] at estimate
  have release : c.releaseDuration = 99999000000 := by
    have slice : c.sendSlice = 1 := by decide
    have period : c.sliceDuration = 1000000 := by decide
    rw [SessionConfiguration.releaseDuration, slice, period, ceilDiv_one,
      show c.size.value = 100000 from rfl]
  omega

end NetTester

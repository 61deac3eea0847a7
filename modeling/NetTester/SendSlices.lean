import NetTester.Bandwidth

namespace NetTester

/-- The bytes of one slice of the send throttle. -/
def SessionConfiguration.sendSlice (c : SessionConfiguration) : Nat :=
  BandwidthThrottle.toSliceBytesCount c.sendBandwidth.value c.bandwidthSamplingFrequency

/-- A slice is released once the earlier ones are used up, and only while data are left. -/
structure Lagged (c : SessionConfiguration) (v : SendView) : Prop where
  behind : (v.throttle.firings.length - 1) * c.sendSlice ≤ v.sent.value
  needed : v.throttle.firings ≠ [] →
    (v.throttle.firings.length - 1) * c.sendSlice < c.size.value

variable {c : SessionConfiguration} {draws : Nat → Nat} {now : Nat} {failed : Prop}
  {v w : SendView}

theorem Lagged.transfer (h : Lagged c v) (sent : v.sent.value ≤ w.sent.value)
    (firings : w.throttle.firings = v.throttle.firings) : Lagged c w := by
  refine ⟨?_, ?_⟩
  · rw [firings]
    exact h.behind.trans sent
  · rw [firings]
    exact h.needed

/-- Asking neither counts bytes nor releases a slice. -/
theorem SendAsk.frame {slice : Nat} (ask : SendAsk c draws slice v w) :
    w.sent = v.sent ∧ w.throttle.firings = v.throttle.firings := by
  cases ask with
  | wait => exact ⟨rfl, rfl⟩
  | offer => exact ⟨rfl, rfl⟩
  | assertion => exact ⟨rfl, rfl⟩

/-- The counter of a completed send does not wrap. -/
theorem SendSlices.sum {call : SendCall} {n : Nat}
    (h : SendSlices c draws now v call (some (.ok n))) :
    (v.sent.add n).value = v.sent.value + n ∧ v.sent.value + n ≤ c.size.value := by
  obtain ⟨start, budget⟩ := h.budget
  have fits := h.fits n rfl
  have inSlice := h.offer.inSlice
  have within := budget.budget
  exact ⟨(budget.count h.offer fits []).1, by omega⟩

/-- A chain that waits has used up the slices that it was released. -/
theorem SendWaits.spent {x : Nat} {r : Option (Option ErrorCode)} (h : SendWaits c now v x r) :
    v.sent.value = v.throttle.firings.length * c.sendSlice ∧
      v.throttle.sliceBytesCount = c.sendSlice := by
  obtain ⟨start, budget⟩ := h.budget
  have within := budget.budget
  have short := h.short
  have bytes : v.throttle.sliceBytesCount = c.sendSlice := budget.throttled.bytes
  rw [bytes] at within
  exact ⟨by omega, bytes⟩

theorem SendMove.lagged {s s' : Session} {t : Nat} {e : Event} (move : SendMove s t e s')
    (h : SendChain s.configuration s.draws s.now (s.failure ≠ none) s.sendView)
    (lagged : Lagged s.configuration s.sendView) : Lagged s.configuration s'.sendView := by
  cases move with
  | still view => exact view ▸ lagged
  | start unstarted used view =>
    rw [view]
    exact ⟨by simp [BandwidthThrottle.delay, BandwidthThrottle.reset],
      by simp [BandwidthThrottle.delay, BandwidthThrottle.reset]⟩
  | startUnused unstarted unused view =>
    rw [view]
    exact lagged.transfer le_rfl rfl
  | expire x waits due view =>
    rw [view]
    exact lagged.transfer le_rfl rfl
  | slice x waits view =>
    have waiting := h.wait waits
    obtain ⟨sent, firings⟩ := view.frame
    have spent := waiting.spent.1
    have short := waiting.short
    have count : s'.sendView.throttle.firings.length - 1 = s.sendView.throttle.firings.length := by
      simp only [firings, BandwidthThrottle.startSlice, List.length_append, List.length_singleton,
        Nat.add_sub_cancel]
      rfl
    refine ⟨?_, fun _ => ?_⟩
    · rw [count, sent]
      exact spent.ge
    · rw [count]
      exact spent ▸ short
  | cancelled x f waits =>
    have result := (h.wait waits).result
    simp at result
  | fill i n call event pending fits view =>
    rw [view]
    exact lagged.transfer le_rfl rfl
  | fail i f call event pending failed view =>
    rw [view]
    exact lagged.transfer le_rfl rfl
  | resume call n ready short view =>
    obtain ⟨sent, firings⟩ := view.frame
    refine lagged.transfer ?_ firings
    rw [sent]
    exact (Nat.le_add_right _ _).trans (h.slice ready).sum.1.ge
  | finish call n ready full view =>
    rw [view]
    exact lagged.transfer ((Nat.le_add_right _ _).trans (h.slice ready).sum.1.ge) rfl
  | aborted call ready =>
    have live := (h.slice ready).live
    exact absurd (live _ rfl) (by decide)
  | stop call f ready view =>
    rw [view]
    exact lagged.transfer le_rfl rfl

theorem Lagged.create (c : SessionConfiguration) (draws : Nat → Nat) (now : Nat) :
    Lagged c (Session.create c draws now).sendView :=
  ⟨by simp [Session.create, Session.sendView, BandwidthThrottle.create],
    by simp [Session.create, Session.sendView, BandwidthThrottle.create]⟩

end NetTester

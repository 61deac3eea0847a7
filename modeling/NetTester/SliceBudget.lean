import NetTester.Sound

namespace NetTester

def ReceiveHandler.sliceRemaining : ReceiveHandler → Nat
  | .onReceive sliceRemainingSize => sliceRemainingSize
  | .onEof => 0

namespace Session

/-- The part of its slice that the send chain still holds: nothing while it waits. -/
def sendSliceRemaining (s : Session) : Nat :=
  (s.sends.map fun o => o.handler.sliceRemainingSize).sum

/-- The part of its slice that the receive chain still holds: nothing while it waits. -/
def receiveSliceRemaining (s : Session) : Nat :=
  (s.receives.map fun o => o.handler.handler.sliceRemaining).sum

end Session

variable {c : SessionConfiguration} {draws : Nat → Nat} {now : Nat} {failed : Prop}

/-- A started send chain that neither failed nor finished holds what it may still send. -/
theorem SendChain.account {v : SendView} (h : SendChain c draws now failed v)
    (started : v.startDate ≠ none) (clear : ¬failed) (alive : v.assertionFailed = false)
    (used : c.direction ≠ .rx) (unfinished : v.finishes = 0) :
    v.sent.value + (v.sends.map fun o => o.handler.sliceRemainingSize).sum =
      min (v.throttle.firings.length * v.throttle.sliceBytesCount) c.size.value := by
  cases h with
  | unstarted date => exact absurd date started
  | unused direction => exact absurd direction used
  | waiting start r budget _ short sends => simpa [sends] using budget.budget
  | sending start call r budget offer _ sends => simpa [sends] using budget.budget
  | complete start budget _ full sends waits complete alive finished => simp_all
  | stopped start remaining cause => simp_all

/-- A completed send never reports more than the slice its handler captured. -/
theorem SendChain.within {v : SendView} (h : SendChain c draws now failed v) :
    ∀ o ∈ v.sends, ∀ n, o.result = some (.ok n) → n ≤ o.handler.sliceRemainingSize := by
  intro o member n result
  cases h with
  | sending start call r budget offer used sends waits fits =>
    obtain rfl : o = ⟨call, r⟩ := by simpa [sends] using member
    exact (fits n result).trans offer.inSlice
  | _ => simp_all

theorem SendChain.paced {v : SendView} (h : SendChain c draws now failed v) {start : Nat}
    (date : v.startDate = some start) (used : c.direction ≠ .rx) :
    ∀ i t, v.throttle.firings[i]? = some t → start + i * v.throttle.sliceDuration ≤ t := by
  obtain ⟨remaining, budget⟩ := h.budgeted date used
  exact budget.throttled.paced.late

theorem ReceiveChain.account {v : ReceiveView} (h : ReceiveChain c now failed v)
    (started : v.startDate ≠ none) (clear : ¬failed) (unfinished : v.finishes = 0)
    (room : c.size.value + bufferSize ≤ 2 ^ 64) :
    v.received.value +
        (v.receives.map fun o => o.handler.handler.sliceRemaining).sum =
      v.throttle.firings.length * v.throttle.sliceBytesCount := by
  -- The counter has not wrapped, since it is the total that the budget counts.
  have counted : ∀ start total remaining, ReceiveBudget c now v start total remaining →
      v.received.value + remaining = v.throttle.firings.length * v.throttle.sliceBytesCount := by
    intro start total remaining budget
    have exact := budget.exact room
    rw [← budget.budget, budget.counter, Nat.mod_eq_of_lt (by omega)]
  cases h with
  | unstarted date => exact absurd date started
  | waiting start total r budget _ short receives =>
    simpa [receives] using counted _ _ _ budget
  | receiving start total slice r budget _ short positive bounded receives =>
    simpa [receives, ReceiveHandler.sliceRemaining] using counted _ _ _ budget
  | probing r ended stream receives waits live incomplete finished => simp_all
  | complete ended receives waits complete finished => simp_all
  | stopped failure => exact absurd failure clear

theorem ReceiveChain.within {v : ReceiveView} (h : ReceiveChain c now failed v) :
    ∀ o ∈ v.receives, ∀ slice n, o.handler.handler = .onReceive slice →
      o.result = some (.ok n) → n ≤ slice := by
  intro o member slice n handler result
  cases h with
  | receiving start total slice' r budget used short positive bounded receives waits fits =>
    obtain rfl : o = ⟨⟨.onReceive slice', min slice' bufferSize⟩, r⟩ := by
      simpa [receives] using member
    obtain rfl : slice' = slice := ReceiveHandler.onReceive.inj handler
    exact (fits n result).trans (Nat.min_le_left _ _)
  | probing r ended stream receives =>
    obtain rfl : o = ⟨⟨.onEof, 1⟩, r⟩ := by simpa [receives] using member
    cases handler
  | _ => simp_all

theorem ReceiveChain.paced {v : ReceiveView} (h : ReceiveChain c now failed v) {start : Nat}
    (date : v.startDate = some start) (used : c.direction ≠ .tx) :
    ∀ i t, v.throttle.firings[i]? = some t → start + i * v.throttle.sliceDuration ≤ t := by
  obtain ⟨total, remaining, budget⟩ := h.budgeted date used
  exact budget.throttled.paced.late

/-- Both chains carry an exact account of their slices, and a throttle fires on schedule or late. -/
theorem slice_budgets {c : SessionConfiguration} (accepted : Accepted c)
    (small : c.size.value < 2 ^ 63) {draws : Nat → Nat} {now start : Nat}
    {events : List (Nat × Event)} {s : Session} (reach : Session.Reaches c draws now events s)
    (started : s.statistics.startDate = some start) (clear : s.failure = none)
    (alive : s.assertionFailed = false) :
    (c.direction ≠ .rx → s.calls.count .finishSend = 0 →
      s.statistics.sentBytesCount.value + s.sendSliceRemaining =
        min (s.sendThrottle.firings.length * s.sendThrottle.sliceBytesCount) c.size.value) ∧
    (c.direction ≠ .tx → s.calls.count .finishReceive = 0 →
      s.statistics.receivedBytesCount.value + s.receiveSliceRemaining =
        s.receiveThrottle.firings.length * s.receiveThrottle.sliceBytesCount) ∧
    (∀ o ∈ s.sends, ∀ n, o.result = some (.ok n) → n ≤ o.handler.sliceRemainingSize) ∧
    (∀ o ∈ s.receives, ∀ slice n, o.handler.handler = .onReceive slice →
      o.result = some (.ok n) → n ≤ slice) ∧
    (c.direction ≠ .rx → ∀ i t, s.sendThrottle.firings[i]? = some t →
      start + i * s.sendThrottle.sliceDuration ≤ t) ∧
    (c.direction ≠ .tx → ∀ i t, s.receiveThrottle.firings[i]? = some t →
      start + i * s.receiveThrottle.sliceDuration ≤ t) := by
  obtain ⟨sound, rfl, rfl⟩ := Sound.of_reaches accepted reach
  have begun : s.statistics.startDate ≠ none := by simp [started]
  have unfailed : ¬s.failure ≠ none := fun failed => failed clear
  have room : s.configuration.size.value + bufferSize ≤ 2 ^ 64 := by
    have : bufferSize = 131072 := rfl
    omega
  exact ⟨fun used unfinished => sound.send.account begun unfailed alive used unfinished,
    fun _ unfinished => sound.receive.account begun unfailed unfinished room,
    sound.send.within, sound.receive.within, fun used => sound.send.paced started used,
    fun used => sound.receive.paced started used⟩

theorem slice_budgets_partial : ∃ s, Session.Reaches
    (defaultConfiguration "127.0.0.1:1234" ⟨2, .iec, by decide⟩) (fun _ => 0) 0
    [(0, .complete (.opened 0 none)), (0, .invoke (.onConnect 0)), (0, .complete (.sendSlice 0)),
      (0, .invoke (.sendThrottle 0)), (0, .complete (.sent 0 (.ok 1))), (0, .invoke (.onSend 0))]
    s ∧ s.statistics.sentBytesCount.value + s.sendSliceRemaining = min (1 * 128000) 2 := by
  refine Machine.exists_run (fun s => (s.statistics.startDate, s.failure, s.assertionFailed,
    s.calls.count .finishSend, s.sendThrottle.firings.length, s.sendThrottle.sliceBytesCount))
    (b := (some 0, none, false, 0, 1, 128000)) rfl ?_
  intro s reach observed
  simp only [Prod.mk.injEq] at observed
  obtain ⟨started, clear, alive, unfinished, firings, bytes⟩ := observed
  have budget := slice_budgets (accepted_default _ (by decide)) (by decide) reach started clear
    alive
  have account := budget.1 (by decide) unfinished
  rw [firings, bytes] at account
  exact account

end NetTester

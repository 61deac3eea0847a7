import NetTester.ReceiveChain

namespace NetTester

/-- The bytes of a transfer: the one at position `p` is `p` modulo 256. -/
def pattern (n : Nat) : List UInt8 := (List.range n).map UInt8.ofNat

/-- The account of a send chain: every released byte was sent or is still allowed, as long as the
size has room for it. -/
structure SendBudget (c : SessionConfiguration) (now : Nat) (v : SendView) (start remaining : Nat) :
    Prop where
  date : v.startDate = some start
  throttled : Throttled c.sendBandwidth.value c.bandwidthSamplingFrequency start now v.throttle
  budget : v.sent.value + remaining =
    min (v.throttle.firings.length * v.throttle.sliceBytesCount) c.size.value
  accepted : v.accepted = pattern v.sent.value

/-- The buffer a send operation was offered, out of what the chain may still send. -/
structure SendOffer (c : SessionConfiguration) (draws : Nat → Nat) (v : SendView)
    (call : SendCall) : Prop where
  offset : call.offset = v.sent.value % 2 ^ 8
  positive : call.sliceRemainingSize ≠ 0
  inSlice : call.size ≤ call.sliceRemainingSize
  inBuffer : call.offset + call.size ≤ bufferSize
  stream : c.protocol = .tcp → call.size ≠ 0
  datagram : c.protocol = .udp → ∃ m, Drawn c draws m ∧ call.size = min call.sliceRemainingSize m

/-- The states of the send chain. -/
inductive SendChain (c : SessionConfiguration) (draws : Nat → Nat) (now : Nat) (failed : Prop)
    (v : SendView) : Prop
  | unstarted (date : v.startDate = none) (sent : v.sent.value = 0) (accepted : v.accepted = [])
      (sends : v.sends = []) (waits : v.throttle.waits = []) (incomplete : v.isComplete = false)
      (alive : v.assertionFailed = false) (unfinished : v.finishes = 0)
      (bytes : v.throttle.sliceBytesCount =
        BandwidthThrottle.toSliceBytesCount c.sendBandwidth.value c.bandwidthSamplingFrequency)
      (duration : v.throttle.sliceDuration =
        BandwidthThrottle.toSliceDuration c.bandwidthSamplingFrequency)
  | unused (direction : c.direction = .rx) (date : v.startDate ≠ none) (sent : v.sent.value = 0)
      (accepted : v.accepted = []) (sends : v.sends = []) (waits : v.throttle.waits = [])
      (complete : v.isComplete = true) (alive : v.assertionFailed = false)
      (finished : v.finishes = 1)
  | waiting (start : Nat) (r : Option (Option ErrorCode)) (budget : SendBudget c now v start 0)
      (used : c.direction ≠ .rx) (short : v.sent.value < c.size.value) (sends : v.sends = [])
      (waits : v.throttle.waits = [⟨v.throttle.nextSliceStart, r⟩])
      (result : r = none ∨ r = some none ∧ v.throttle.nextSliceStart ≤ now)
      (incomplete : v.isComplete = false) (alive : v.assertionFailed = false)
      (unfinished : v.finishes = 0)
  | sending (start : Nat) (call : SendCall) (r : Option (Except ErrorCode Nat))
      (budget : SendBudget c now v start call.sliceRemainingSize)
      (offer : SendOffer c draws v call) (used : c.direction ≠ .rx)
      (sends : v.sends = [⟨call, r⟩]) (waits : v.throttle.waits = [])
      (fits : ∀ n, r = some (.ok n) → n ≤ call.size)
      (live : ∀ f, r = some (.error f) → f.isSystem = true) (incomplete : v.isComplete = false)
      (alive : v.assertionFailed = false) (unfinished : v.finishes = 0)
  | complete (start : Nat) (budget : SendBudget c now v start 0) (used : c.direction ≠ .rx)
      (full : v.sent.value = c.size.value) (sends : v.sends = []) (waits : v.throttle.waits = [])
      (complete : v.isComplete = true) (alive : v.assertionFailed = false)
      (finished : v.finishes = 1)
  | stopped (start remaining : Nat) (cause : failed ∨ v.assertionFailed = true)
      (assertion : v.assertionFailed = true → c.protocol = .udp ∧
        ∃ m, Drawn c draws m ∧ bufferSize - v.sent.value % 2 ^ 8 < m)
      (budget : SendBudget c now v start remaining) (used : c.direction ≠ .rx)
      (short : v.sent.value < c.size.value) (sends : v.sends = []) (waits : v.throttle.waits = [])
      (incomplete : v.isComplete = false) (unfinished : v.finishes = 0)

variable {c : SessionConfiguration} {draws : Nat → Nat} {now later start remaining : Nat}
  {failed failed' : Prop} {v : SendView}

@[simp] theorem pattern_zero : pattern 0 = [] := rfl

@[simp] theorem pattern_length (n : Nat) : (pattern n).length = n := by
  simp [pattern]

/-- The buffer repeats the pattern every 256 bytes, so a write that starts at the low byte of the
count goes on with it. -/
theorem pattern_add (sent n : Nat) : pattern (sent + n) =
    pattern sent ++ (List.range n).map fun i => sendBuffer (sent % 2 ^ 8 + i) := by
  rw [pattern, List.range_add, List.map_append, List.map_map]
  congr 1
  refine List.map_congr_left fun i _ => ?_
  apply UInt8.toNat_inj.mp
  simp only [Function.comp, sendBuffer, UInt8.toNat_ofNat']
  omega

theorem SendBudget.mono (h : SendBudget c now v start remaining) (order : now ≤ later) :
    SendBudget c later v start remaining :=
  { h with throttled := h.throttled.mono order }

/-- The account reads the counter, the accepted bytes, the date and the schedule only. -/
theorem SendBudget.transfer (h : SendBudget c now v start remaining) {w : SendView}
    (date : w.startDate = v.startDate) (sent : w.sent = v.sent) (accepted : w.accepted = v.accepted)
    (throttle : { w.throttle with waits := [] } = { v.throttle with waits := [] }) :
    SendBudget c now w start remaining := by
  obtain ⟨_, sent', _, ⟨bytes, duration, next, _, firings⟩, _, _, _, _⟩ := w
  cases date
  cases sent
  cases accepted
  obtain ⟨rfl, rfl, rfl, rfl⟩ : bytes = v.throttle.sliceBytesCount ∧
      duration = v.throttle.sliceDuration ∧ next = v.throttle.nextSliceStart ∧
      firings = v.throttle.firings := by
    simpa using throttle
  exact ⟨h.date, ⟨h.throttled.bytes, h.throttled.duration, h.throttled.paced, h.throttled.past⟩,
    h.budget, h.accepted⟩

theorem SendBudget.sent_le (h : SendBudget c now v start remaining) :
    v.sent.value ≤ c.size.value := by
  have := h.budget
  omega

theorem SendChain.mono (h : SendChain c draws now failed v) (order : now ≤ later)
    (failure : failed → failed') : SendChain c draws later failed' v := by
  cases h with
  | unstarted date sent accepted sends waits incomplete alive unfinished bytes duration =>
    exact .unstarted date sent accepted sends waits incomplete alive unfinished bytes duration
  | unused direction date sent accepted sends waits complete alive finished =>
    exact .unused direction date sent accepted sends waits complete alive finished
  | waiting start r budget used short sends waits result incomplete alive unfinished =>
    exact .waiting start r (budget.mono order) used short sends waits
      (result.imp_right fun h => ⟨h.1, h.2.trans order⟩) incomplete alive unfinished
  | sending start call r budget offer used sends waits fits live incomplete alive unfinished =>
    exact .sending start call r (budget.mono order) offer used sends waits fits live incomplete
      alive unfinished
  | complete start budget used full sends waits complete alive finished =>
    exact .complete start (budget.mono order) used full sends waits complete alive finished
  | stopped start remaining cause assertion budget used short sends waits incomplete unfinished =>
    exact .stopped start remaining (cause.imp_left failure) assertion (budget.mono order) used short
      sends waits incomplete unfinished

/-- Asking for the rest of a slice goes on with the part of it that the size leaves. -/
theorem SendBudget.ask {w : SendView}
    (h : SendBudget c now v start (min remaining (c.size.value - v.sent.value)))
    (ask : SendAsk c draws remaining v w) (used : c.direction ≠ .rx)
    (short : v.sent.value < c.size.value) (sends : v.sends = []) (waits : v.throttle.waits = [])
    (incomplete : v.isComplete = false) (alive : v.assertionFailed = false)
    (unfinished : v.finishes = 0) : SendChain c draws now failed w := by
  have size := c.size.bounded
  have left : sub64 c.size.value v.sent.value = c.size.value - v.sent.value :=
    sub64_of_le short.le size
  cases ask with
  | wait zero =>
    subst zero
    rw [Nat.zero_min] at h
    exact .waiting start none (h.transfer rfl rfl rfl rfl) used short sends
      (by simp [BandwidthThrottle.delay, waits, Operation.initiate]) (.inl rfl) incomplete alive
      unfinished
  | offer positive call offered =>
    have slice := offered.slice
    have offset := offered.offset
    rw [left] at slice
    rw [← slice] at h
    have nonzero : call.sliceRemainingSize ≠ 0 := by omega
    have room : call.offset < bufferSize := by
      have : bufferSize = 131072 := rfl
      omega
    refine .sending start call none (h.transfer rfl rfl rfl rfl) ?_ used
      (by simp [sends, Operation.initiate]) waits (by simp) (by simp) incomplete alive unfinished
    cases hp : c.protocol with
    | tcp =>
      have exact := offered.stream hp
      exact ⟨offset, nonzero, by omega, by omega, fun _ => by omega, by simp [hp]⟩
    | udp =>
      obtain ⟨inside, m, drawn, exact⟩ := offered.datagram hp
      exact ⟨offset, nonzero, by omega, by omega, by simp [hp], fun _ => ⟨m, drawn, exact⟩⟩
  | assertion udp m drawn outside =>
    exact .stopped start _ (.inr rfl) (fun _ => ⟨udp, m, drawn, by simp only; omega⟩)
      (h.transfer rfl rfl rfl rfl) used short sends waits incomplete unfinished

/-- Accepted bytes move from the allowed part of the budget to the counted one. -/
theorem SendBudget.count {call : SendCall} {n : Nat}
    (h : SendBudget c now v start call.sliceRemainingSize) (offer : SendOffer c draws v call)
    (fits : n ≤ call.size) (sends : List (Operation SendCall (Except ErrorCode Nat))) :
    (v.sent.add n).value = v.sent.value + n ∧
      SendBudget c now { v with
        sent := v.sent.add n
        accepted := v.accepted ++ (List.range n).map fun i => sendBuffer (call.offset + i)
        sends := sends } start (call.sliceRemainingSize - n) := by
  have budget := h.budget
  have inSlice := offer.inSlice
  have size := c.size.bounded
  have sum : (v.sent.add n).value = v.sent.value + n := Size.add_value_of_lt (by omega)
  refine ⟨sum, h.date, h.throttled, ?_, ?_⟩
  · simp only [sum]
    omega
  · simp only [sum, h.accepted, offer.offset, pattern_add]

/-- A chain that waits on its throttle: it has used up its slice. -/
structure SendWaits (c : SessionConfiguration) (now : Nat) (v : SendView) (x : Nat)
    (r : Option (Option ErrorCode)) : Prop where
  instant : x = v.throttle.nextSliceStart
  result : r = none ∨ r = some none ∧ x ≤ now
  used : c.direction ≠ .rx
  short : v.sent.value < c.size.value
  sends : v.sends = []
  incomplete : v.isComplete = false
  alive : v.assertionFailed = false
  unfinished : v.finishes = 0
  budget : ∃ start, SendBudget c now v start 0

/-- A chain that waits on its socket: it holds the rest of its slice. -/
structure SendSlices (c : SessionConfiguration) (draws : Nat → Nat) (now : Nat) (v : SendView)
    (call : SendCall) (r : Option (Except ErrorCode Nat)) : Prop where
  offer : SendOffer c draws v call
  fits : ∀ n, r = some (.ok n) → n ≤ call.size
  live : ∀ f, r = some (.error f) → f.isSystem = true
  used : c.direction ≠ .rx
  waits : v.throttle.waits = []
  incomplete : v.isComplete = false
  alive : v.assertionFailed = false
  unfinished : v.finishes = 0
  budget : ∃ start, SendBudget c now v start call.sliceRemainingSize

/-- A chain before the start of the transfer. -/
structure SendIdles (c : SessionConfiguration) (v : SendView) : Prop where
  sent : v.sent.value = 0
  accepted : v.accepted = []
  sends : v.sends = []
  waits : v.throttle.waits = []
  incomplete : v.isComplete = false
  alive : v.assertionFailed = false
  unfinished : v.finishes = 0
  bytes : v.throttle.sliceBytesCount =
    BandwidthThrottle.toSliceBytesCount c.sendBandwidth.value c.bandwidthSamplingFrequency
  duration : v.throttle.sliceDuration =
    BandwidthThrottle.toSliceDuration c.bandwidthSamplingFrequency

theorem SendChain.wait {x : Nat} {r : Option (Option ErrorCode)}
    (h : SendChain c draws now failed v) (waits : v.throttle.waits = [⟨x, r⟩]) :
    SendWaits c now v x r := by
  cases h with
  | waiting start r' budget used short sends waits' result incomplete alive unfinished =>
    rw [waits] at waits'
    simp only [List.cons.injEq, Operation.mk.injEq, and_true] at waits'
    obtain ⟨rfl, rfl⟩ := waits'
    exact ⟨rfl, result, used, short, sends, incomplete, alive, unfinished, start, budget⟩
  | _ => simp_all

theorem SendChain.slice {call : SendCall} {r : Option (Except ErrorCode Nat)}
    (h : SendChain c draws now failed v) (sends : v.sends = [⟨call, r⟩]) :
    SendSlices c draws now v call r := by
  cases h with
  | sending start call' r' budget offer used sends' waits fits live incomplete alive unfinished =>
    rw [sends] at sends'
    simp only [List.cons.injEq, Operation.mk.injEq, and_true] at sends'
    obtain ⟨rfl, rfl⟩ := sends'
    exact ⟨offer, fits, live, used, waits, incomplete, alive, unfinished, start, budget⟩
  | _ => simp_all

theorem SendChain.idle (h : SendChain c draws now failed v) (date : v.startDate = none) :
    SendIdles c v := by
  cases h with
  | unstarted _ sent accepted sends waits incomplete alive unfinished bytes duration =>
    exact ⟨sent, accepted, sends, waits, incomplete, alive, unfinished, bytes, duration⟩
  | unused direction started => exact absurd date started
  | waiting start r budget => simp [budget.date] at date
  | sending start call r budget => simp [budget.date] at date
  | complete start budget => simp [budget.date] at date
  | stopped start remaining cause assertion budget => simp [budget.date] at date

/-- A chain that started to send has an account. -/
theorem SendChain.budgeted (h : SendChain c draws now failed v) (date : v.startDate = some start)
    (used : c.direction ≠ .rx) : ∃ remaining, SendBudget c now v start remaining := by
  have same : ∀ start' remaining, SendBudget c now v start' remaining →
      ∃ remaining, SendBudget c now v start remaining := by
    intro start' remaining budget
    cases budget.date.symm.trans date
    exact ⟨remaining, budget⟩
  cases h with
  | unstarted none => simp [none] at date
  | unused direction => exact absurd direction used
  | waiting start' r budget => exact same _ _ budget
  | sending start' call r budget => exact same _ _ budget
  | complete start' budget => exact same _ _ budget
  | stopped start' remaining cause assertion budget => exact same _ _ budget

/-- A chain that is not used sends nothing. -/
theorem SendChain.unused_sent (h : SendChain c draws now failed v) (unused : c.direction = .rx) :
    v.sent.value = 0 := by
  cases h with
  | unstarted date sent => exact sent
  | unused direction date sent => exact sent
  | waiting start r budget used => exact absurd unused used
  | sending start call r budget offer used => exact absurd unused used
  | complete start budget used => exact absurd unused used
  | stopped start remaining cause assertion budget used => exact absurd unused used

/-- A slice that starts adds its bytes to what the chain may send. -/
theorem SendChain.next {x : Nat} {w : SendView} (h : SendChain c draws now failed v)
    (waits : v.throttle.waits = [⟨x, some none⟩]) (order : now ≤ later)
    (ask : SendAsk c draws v.throttle.sliceBytesCount
      { v with throttle := { v.throttle with waits := [] }.startSlice later } w) :
    SendChain c draws later failed' w := by
  obtain ⟨rfl, result, used, short, sends, incomplete, alive, unfinished, start, budget⟩ :=
    h.wait waits
  have due : v.throttle.nextSliceStart ≤ later := by
    rcases result with result | result
    · simp at result
    · exact result.2.trans order
  have next : SendBudget c later
      { v with throttle := { v.throttle with waits := [] }.startSlice later } start
      (min v.throttle.sliceBytesCount (c.size.value - v.sent.value)) := {
    date := budget.date
    throttled := budget.throttled.startSlice order due
    budget := by
      have := budget.budget
      simp only [BandwidthThrottle.startSlice, List.length_append, List.length_singleton,
        Nat.succ_mul]
      omega
    accepted := budget.accepted }
  exact next.ask ask used short sends rfl incomplete alive unfinished

/-- The send chain stays in one of its states whatever the event. -/
theorem SendMove.chain {s s' : Session} {t : Nat} {e : Event} (move : SendMove s t e s')
    (h : SendChain s.configuration s.draws s.now (s.failure ≠ none) s.sendView)
    (positive : s.configuration.size.value ≠ 0) (order : s.now ≤ t)
    (failure : s.failure ≠ none → s'.failure ≠ none) :
    SendChain s.configuration s.draws t (s'.failure ≠ none) s'.sendView := by
  cases move with
  | still view => exact view ▸ h.mono order failure
  | start unstarted used view =>
    obtain ⟨sent, accepted, sends, waits, incomplete, alive, unfinished, bytes, duration⟩ :=
      h.idle unstarted
    rw [view]
    refine .waiting t none ⟨rfl, ⟨bytes, duration, Pacing.Paced.nil, ?_⟩, ?_, ?_⟩ used ?_ sends ?_
      (.inl rfl) incomplete alive unfinished
    · simp [BandwidthThrottle.delay, BandwidthThrottle.reset]
    · simp [BandwidthThrottle.delay, BandwidthThrottle.reset, sent]
    · simp [sent, accepted]
    · simp only [sent]
      omega
    · have waits : s.sendThrottle.waits = [] := waits
      simp [BandwidthThrottle.delay, BandwidthThrottle.reset, waits, Operation.initiate]
  | startUnused unstarted unused view =>
    obtain ⟨sent, accepted, sends, waits, _, alive, unfinished, _, _⟩ := h.idle unstarted
    rw [view]
    exact .unused unused (by simp [SendView.finish]) sent accepted sends waits rfl alive
      (by simp [SendView.finish, unfinished])
  | expire x waits due view =>
    obtain ⟨rfl, _, used, short, sends, incomplete, alive, unfinished, start, budget⟩ :=
      h.wait waits
    rw [view]
    exact .waiting start (some none) ((budget.mono order).transfer rfl rfl rfl rfl) used short
      sends rfl (.inr ⟨rfl, due⟩) incomplete alive unfinished
  | slice x waits view => exact h.next waits order view
  | cancelled x f waits =>
    have result := (h.wait waits).result
    simp at result
  | fill i n call event pending fits view =>
    obtain ⟨offer, _, _, used, waits, incomplete, alive, unfinished, start, budget⟩ :=
      h.slice pending
    rw [view]
    refine .sending start call _ ((budget.mono order).transfer rfl rfl rfl rfl)
      ⟨offer.offset, offer.positive, offer.inSlice, offer.inBuffer, offer.stream, offer.datagram⟩
      used rfl waits ?_ (by simp) incomplete alive unfinished
    intro k hk
    cases hk
    exact fits
  | fail i f call event pending failed view =>
    obtain ⟨offer, _, _, used, waits, incomplete, alive, unfinished, start, budget⟩ :=
      h.slice pending
    rw [view]
    exact .sending start call _ ((budget.mono order).transfer rfl rfl rfl rfl)
      ⟨offer.offset, offer.positive, offer.inSlice, offer.inBuffer, offer.stream, offer.datagram⟩
      used rfl waits (by simp) (by simpa using failed) incomplete alive unfinished
  | resume call n ready short view =>
    obtain ⟨offer, fits, _, used, waits, incomplete, alive, unfinished, start, budget⟩ :=
      h.slice ready
    have fits := fits n rfl
    have inSlice := offer.inSlice
    have within := budget.budget
    have bounded := s.configuration.size.bounded
    obtain ⟨sum, counted⟩ := (budget.mono order).count offer fits []
    rw [sub64_of_le (by omega) (by omega)] at view
    have rest : min (call.sliceRemainingSize - n) (s.configuration.size.value -
        (s.statistics.sentBytesCount.add n).value) = call.sliceRemainingSize - n := by
      have : (s.statistics.sentBytesCount.add n).value = s.sendView.sent.value + n := sum
      omega
    rw [← rest] at counted
    exact counted.ask view used short rfl waits incomplete alive unfinished
  | finish call n ready full view =>
    obtain ⟨offer, fits, _, used, waits, _, alive, unfinished, start, budget⟩ := h.slice ready
    have fits := fits n rfl
    have inSlice := offer.inSlice
    have within := budget.budget
    obtain ⟨sum, counted⟩ := (budget.mono order).count offer fits []
    have sum : (s.statistics.sentBytesCount.add n).value = s.sendView.sent.value + n := sum
    have spent : call.sliceRemainingSize - n = 0 := by omega
    rw [spent] at counted
    rw [view]
    exact .complete start (counted.transfer rfl rfl rfl rfl) used
      (by simp only [SendView.finish]; omega) rfl waits rfl alive
      (by simp [SendView.finish, unfinished])
  | aborted call ready =>
    have live := (h.slice ready).live
    exact absurd (live _ rfl) (by decide)
  | stop call f ready view report =>
    obtain ⟨offer, _, _, used, waits, incomplete, alive, unfinished, start, budget⟩ :=
      h.slice ready
    have recorded : s'.failure = some f := congrArg Report.failure report
    have within := budget.budget
    have positive := offer.positive
    rw [view]
    exact .stopped start _ (.inl (by simp [recorded])) (by simp [alive])
      ((budget.mono order).transfer rfl rfl rfl rfl) used (by simp only; omega) rfl waits incomplete
      unfinished

end NetTester

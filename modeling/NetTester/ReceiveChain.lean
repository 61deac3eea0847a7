import NetTester.Pacing
import NetTester.StepMoves

namespace NetTester

/-- A throttle that was reset at an instant and has released its slices on schedule since. -/
structure Throttled (bandwidth samplingFrequency start now : Nat) (throttle : BandwidthThrottle) :
    Prop where
  bytes : throttle.sliceBytesCount =
    BandwidthThrottle.toSliceBytesCount bandwidth samplingFrequency
  duration : throttle.sliceDuration = BandwidthThrottle.toSliceDuration samplingFrequency
  paced : Pacing.Paced start throttle.sliceDuration throttle.firings throttle.nextSliceStart
  past : ∀ t ∈ throttle.firings, t ≤ now

/-- The account of a receive chain: every released byte was received or is still allowed. The
counter wraps, but never while the size leaves room for one more buffer. -/
structure ReceiveBudget (c : SessionConfiguration) (now : Nat) (v : ReceiveView)
    (start total remaining : Nat) : Prop where
  date : v.startDate = some start
  throttled : Throttled c.receiveBandwidth.value c.bandwidthSamplingFrequency start now v.throttle
  counter : v.received.value = total % 2 ^ 64
  budget : total + remaining = v.throttle.firings.length * v.throttle.sliceBytesCount
  exact : c.size.value + bufferSize ≤ 2 ^ 64 → total < c.size.value + bufferSize
  overshoot : v.received.value < c.size.value + bufferSize
  second : 2 ≤ v.throttle.firings.length → v.throttle.sliceBytesCount < c.size.value

/-- The counter of a chain that is past its data, or that never was to receive any. -/
def ReceiveEnded (c : SessionConfiguration) (now : Nat) (v : ReceiveView) : Prop :=
  (c.direction = .tx ∧ v.startDate ≠ none ∧ v.received.value = 0) ∨
    (c.direction ≠ .tx ∧ c.size.value ≤ v.received.value ∧
      ∃ start total remaining, ReceiveBudget c now v start total remaining)

/-- The states of the receive chain. -/
inductive ReceiveChain (c : SessionConfiguration) (now : Nat) (failed : Prop) (v : ReceiveView) :
    Prop
  | unstarted (date : v.startDate = none) (received : v.received.value = 0)
      (receives : v.receives = []) (waits : v.throttle.waits = [])
      (incomplete : v.isComplete = false) (unfinished : v.finishes = 0)
      (bytes : v.throttle.sliceBytesCount =
        BandwidthThrottle.toSliceBytesCount c.receiveBandwidth.value c.bandwidthSamplingFrequency)
      (duration : v.throttle.sliceDuration =
        BandwidthThrottle.toSliceDuration c.bandwidthSamplingFrequency)
  | waiting (start total : Nat) (r : Option (Option ErrorCode))
      (budget : ReceiveBudget c now v start total 0) (used : c.direction ≠ .tx)
      (short : v.received.value < c.size.value) (receives : v.receives = [])
      (waits : v.throttle.waits = [⟨v.throttle.nextSliceStart, r⟩])
      (result : r = none ∨ r = some none ∧ v.throttle.nextSliceStart ≤ now)
      (incomplete : v.isComplete = false) (unfinished : v.finishes = 0)
  | receiving (start total slice : Nat) (r : Option (Except ErrorCode Nat))
      (budget : ReceiveBudget c now v start total slice) (used : c.direction ≠ .tx)
      (short : v.received.value < c.size.value) (positive : slice ≠ 0) (bounded : slice < 2 ^ 64)
      (receives : v.receives = [⟨⟨.onReceive slice, min slice bufferSize⟩, r⟩])
      (waits : v.throttle.waits = []) (fits : ∀ n, r = some (.ok n) → n ≤ min slice bufferSize)
      (live : ∀ f, r = some (.error f) → f.isSystem = true) (incomplete : v.isComplete = false)
      (unfinished : v.finishes = 0)
  | probing (r : Option (Except ErrorCode Nat)) (ended : ReceiveEnded c now v)
      (stream : c.protocol = .tcp) (receives : v.receives = [⟨⟨.onEof, 1⟩, r⟩])
      (waits : v.throttle.waits = []) (live : ∀ f, r = some (.error f) → f.isSystem = true)
      (incomplete : v.isComplete = false) (finished : v.finishes = 1)
  | complete (ended : ReceiveEnded c now v) (receives : v.receives = [])
      (waits : v.throttle.waits = []) (complete : v.isComplete = true) (finished : v.finishes = 1)
  | stopped (failure : failed) (date : v.startDate ≠ none)
      (account : (c.direction = .tx ∧ v.received.value = 0) ∨ (c.direction ≠ .tx ∧
        ∃ start total remaining, ReceiveBudget c now v start total remaining))
      (receives : v.receives = []) (waits : v.throttle.waits = [])
      (incomplete : v.isComplete = false)

variable {c : SessionConfiguration} {now later start total remaining : Nat} {failed failed' : Prop}
  {v : ReceiveView}

theorem Throttled.mono {bandwidth frequency : Nat} {throttle : BandwidthThrottle}
    (h : Throttled bandwidth frequency start now throttle) (order : now ≤ later) :
    Throttled bandwidth frequency start later throttle :=
  { h with past := fun t ht => (h.past t ht).trans order }

/-- A slice that starts once its wait is due keeps the schedule. -/
theorem Throttled.startSlice {bandwidth frequency : Nat} {throttle : BandwidthThrottle}
    (h : Throttled bandwidth frequency start now throttle) (order : now ≤ later)
    (due : throttle.nextSliceStart ≤ later) {waits : List (Operation Nat (Option ErrorCode))} :
    Throttled bandwidth frequency start later
      ({ throttle with waits := waits }.startSlice later) where
  bytes := h.bytes
  duration := h.duration
  paced := h.paced.concat due
  past := by
    intro t ht
    rcases List.mem_append.mp ht with ht | ht
    · exact (h.past t ht).trans order
    · exact (List.mem_singleton.mp ht).le

theorem ReceiveBudget.mono (h : ReceiveBudget c now v start total remaining)
    (order : now ≤ later) : ReceiveBudget c later v start total remaining :=
  { h with throttled := h.throttled.mono order }

theorem ReceiveEnded.mono (h : ReceiveEnded c now v) (order : now ≤ later) :
    ReceiveEnded c later v := by
  rcases h with h | ⟨used, full, start, total, remaining, budget⟩
  · exact .inl h
  · exact .inr ⟨used, full, start, total, remaining, budget.mono order⟩

theorem ReceiveChain.mono (h : ReceiveChain c now failed v) (order : now ≤ later)
    (failure : failed → failed') : ReceiveChain c later failed' v := by
  cases h with
  | unstarted date received receives waits incomplete unfinished bytes duration =>
    exact .unstarted date received receives waits incomplete unfinished bytes duration
  | waiting start total r budget used short receives waits result incomplete unfinished =>
    exact .waiting start total r (budget.mono order) used short receives waits
      (result.imp_right fun h => ⟨h.1, h.2.trans order⟩) incomplete unfinished
  | receiving start total slice r budget used short positive bounded receives waits fits live
      incomplete unfinished =>
    exact .receiving start total slice r (budget.mono order) used short positive bounded receives
      waits fits live incomplete unfinished
  | probing r ended stream receives waits live incomplete finished =>
    exact .probing r (ended.mono order) stream receives waits live incomplete finished
  | complete ended receives waits complete finished =>
    exact .complete (ended.mono order) receives waits complete finished
  | stopped h date account receives waits incomplete =>
    refine .stopped (failure h) date (account.imp_right fun h => ?_) receives waits incomplete
    obtain ⟨used, start, total, remaining, budget⟩ := h
    exact ⟨used, start, total, remaining, budget.mono order⟩

/-- The account reads the counter, the date and the schedule of the throttle only. -/
theorem ReceiveBudget.transfer (h : ReceiveBudget c now v start total remaining) {w : ReceiveView}
    (date : w.startDate = v.startDate) (received : w.received = v.received)
    (throttle : { w.throttle with waits := [] } = { v.throttle with waits := [] }) :
    ReceiveBudget c now w start total remaining := by
  obtain ⟨_, received', _, ⟨bytes, duration, next, _, firings⟩, _, _⟩ := w
  cases date
  cases received
  obtain ⟨rfl, rfl, rfl, rfl⟩ : bytes = v.throttle.sliceBytesCount ∧
      duration = v.throttle.sliceDuration ∧ next = v.throttle.nextSliceStart ∧
      firings = v.throttle.firings := by
    simpa using throttle
  exact ⟨h.date, ⟨h.throttled.bytes, h.throttled.duration, h.throttled.paced, h.throttled.past⟩,
    h.counter, h.budget, h.exact, h.overshoot, h.second⟩

theorem ReceiveEnded.transfer (h : ReceiveEnded c now v) {w : ReceiveView}
    (date : w.startDate = v.startDate) (received : w.received = v.received)
    (throttle : w.throttle = v.throttle) : ReceiveEnded c now w := by
  rcases h with ⟨unused, started, zero⟩ | ⟨used, full, start, total, remaining, budget⟩
  · exact .inl ⟨unused, date ▸ started, received ▸ zero⟩
  · exact .inr ⟨used, received ▸ full, start, total, remaining,
      budget.transfer date received (by rw [throttle])⟩

/-- Asking for the rest of a slice goes on with the same budget. -/
theorem ReceiveBudget.ask (h : ReceiveBudget c now v start total remaining)
    (used : c.direction ≠ .tx) (short : v.received.value < c.size.value)
    (bounded : remaining < 2 ^ 64) (receives : v.receives = []) (waits : v.throttle.waits = [])
    (incomplete : v.isComplete = false) (unfinished : v.finishes = 0) :
    ReceiveChain c now failed (v.ask remaining) := by
  unfold ReceiveView.ask
  split
  next zero =>
    subst zero
    exact .waiting start total none (h.transfer rfl rfl rfl) used short receives
      (by simp [BandwidthThrottle.delay, waits, Operation.initiate]) (.inl rfl) incomplete
      unfinished
  next positive =>
    exact .receiving start total remaining none (h.transfer rfl rfl rfl) used short positive
      bounded (by simp [receives, Operation.initiate]) waits (by simp) (by simp) incomplete
      unfinished

/-- Received bytes move from the allowed part of the budget to the counted one. -/
theorem ReceiveBudget.count (h : ReceiveBudget c now v start total remaining) {n : Nat}
    (short : v.received.value < c.size.value) (within : n ≤ remaining) (fits : n ≤ bufferSize)
    (receives : List (Operation ReceiveCall (Except ErrorCode Nat))) :
    ReceiveBudget c now { v with received := v.received.add n, receives := receives } start
      (total + n) (remaining - n) where
  date := h.date
  throttled := h.throttled
  counter := by
    have := h.counter
    simp only [Size.add_value]
    omega
  budget := by
    have := h.budget
    simp only
    omega
  exact := by
    intro room
    have := h.exact room
    have := h.counter
    omega
  overshoot := by
    have := h.counter
    simp only [Size.add_value]
    omega
  second := h.second

theorem ReceiveEnded.finish (ended : ReceiveEnded c now v) (receives : v.receives = [])
    (waits : v.throttle.waits = []) (incomplete : v.isComplete = false)
    (unfinished : v.finishes = 0) : ReceiveChain c now failed (v.finish c.protocol) := by
  cases hp : c.protocol with
  | tcp =>
    exact .probing none (ended.transfer rfl rfl rfl) hp
      (by simp [ReceiveView.finish, receives, Operation.initiate]) waits (by simp) incomplete
      (by simp [ReceiveView.finish, unfinished])
  | udp =>
    exact .complete (ended.transfer rfl rfl rfl) receives waits rfl
      (by simp [ReceiveView.finish, unfinished])

/-- A chain that waits on its throttle: it has used up its slice. -/
structure ReceiveWaits (c : SessionConfiguration) (now : Nat) (v : ReceiveView) (x : Nat)
    (r : Option (Option ErrorCode)) : Prop where
  instant : x = v.throttle.nextSliceStart
  result : r = none ∨ r = some none ∧ x ≤ now
  used : c.direction ≠ .tx
  short : v.received.value < c.size.value
  receives : v.receives = []
  incomplete : v.isComplete = false
  unfinished : v.finishes = 0
  budget : ∃ start total, ReceiveBudget c now v start total 0

/-- A chain that waits on its socket: it holds the rest of its slice. -/
structure ReceiveSlices (c : SessionConfiguration) (now : Nat) (v : ReceiveView) (slice size : Nat)
    (r : Option (Except ErrorCode Nat)) : Prop where
  buffer : size = min slice bufferSize
  positive : slice ≠ 0
  bounded : slice < 2 ^ 64
  fits : ∀ n, r = some (.ok n) → n ≤ size
  live : ∀ f, r = some (.error f) → f.isSystem = true
  used : c.direction ≠ .tx
  short : v.received.value < c.size.value
  waits : v.throttle.waits = []
  incomplete : v.isComplete = false
  unfinished : v.finishes = 0
  budget : ∃ start total, ReceiveBudget c now v start total slice

/-- A chain that probes for the end of its stream: it is past its data. -/
structure ReceiveProbes (c : SessionConfiguration) (now : Nat) (v : ReceiveView) (size : Nat)
    (r : Option (Except ErrorCode Nat)) : Prop where
  buffer : size = 1
  stream : c.protocol = .tcp
  live : ∀ f, r = some (.error f) → f.isSystem = true
  waits : v.throttle.waits = []
  incomplete : v.isComplete = false
  finished : v.finishes = 1
  ended : ReceiveEnded c now v

/-- A chain before the start of the transfer. -/
structure ReceiveIdles (c : SessionConfiguration) (v : ReceiveView) : Prop where
  received : v.received.value = 0
  receives : v.receives = []
  waits : v.throttle.waits = []
  incomplete : v.isComplete = false
  unfinished : v.finishes = 0
  bytes : v.throttle.sliceBytesCount =
    BandwidthThrottle.toSliceBytesCount c.receiveBandwidth.value c.bandwidthSamplingFrequency
  duration : v.throttle.sliceDuration =
    BandwidthThrottle.toSliceDuration c.bandwidthSamplingFrequency

theorem ReceiveChain.wait {x : Nat} {r : Option (Option ErrorCode)}
    (h : ReceiveChain c now failed v) (waits : v.throttle.waits = [⟨x, r⟩]) :
    ReceiveWaits c now v x r := by
  cases h with
  | waiting start total r' budget used short receives waits' result incomplete unfinished =>
    rw [waits] at waits'
    simp only [List.cons.injEq, Operation.mk.injEq, and_true] at waits'
    obtain ⟨rfl, rfl⟩ := waits'
    exact ⟨rfl, result, used, short, receives, incomplete, unfinished, start, total, budget⟩
  | _ => simp_all

theorem ReceiveChain.slice {slice size : Nat} {r : Option (Except ErrorCode Nat)}
    (h : ReceiveChain c now failed v)
    (receives : v.receives = [⟨⟨.onReceive slice, size⟩, r⟩]) :
    ReceiveSlices c now v slice size r := by
  cases h with
  | receiving start total slice' r' budget used short positive bounded receives' waits fits live
      incomplete unfinished =>
    rw [receives] at receives'
    simp only [List.cons.injEq, Operation.mk.injEq, ReceiveCall.mk.injEq,
      ReceiveHandler.onReceive.injEq, and_true] at receives'
    obtain ⟨⟨rfl, rfl⟩, rfl⟩ := receives'
    exact ⟨rfl, positive, bounded, fits, live, used, short, waits, incomplete, unfinished, start,
      total, budget⟩
  | _ => simp_all

theorem ReceiveChain.probe {size : Nat} {r : Option (Except ErrorCode Nat)}
    (h : ReceiveChain c now failed v) (receives : v.receives = [⟨⟨.onEof, size⟩, r⟩]) :
    ReceiveProbes c now v size r := by
  cases h with
  | probing r' ended stream receives' waits live incomplete finished =>
    rw [receives] at receives'
    simp only [List.cons.injEq, Operation.mk.injEq, ReceiveCall.mk.injEq, true_and,
      and_true] at receives'
    obtain ⟨rfl, rfl⟩ := receives'
    exact ⟨rfl, stream, live, waits, incomplete, finished, ended⟩
  | _ => simp_all

theorem ReceiveChain.idle (h : ReceiveChain c now failed v) (date : v.startDate = none) :
    ReceiveIdles c v := by
  cases h with
  | unstarted _ received receives waits incomplete unfinished bytes duration =>
    exact ⟨received, receives, waits, incomplete, unfinished, bytes, duration⟩
  | waiting start total r budget => simp [budget.date] at date
  | receiving start total slice r budget => simp [budget.date] at date
  | probing r ended =>
    rcases ended with ⟨_, started, _⟩ | ⟨_, _, start, total, remaining, budget⟩
    · exact absurd date started
    · simp [budget.date] at date
  | complete ended =>
    rcases ended with ⟨_, started, _⟩ | ⟨_, _, start, total, remaining, budget⟩
    · exact absurd date started
    · simp [budget.date] at date
  | stopped failure started => exact absurd date started

/-- The first slice of a chain is due when its transfer starts. -/
theorem ReceiveChain.begins (h : ReceiveChain c now failed v) (date : v.startDate = none)
    (positive : c.size.value ≠ 0) (used : c.direction ≠ .tx) :
    ReceiveChain c later failed'
      (ReceiveView.ask 0 { v with
        startDate := some later, throttle := v.throttle.reset later }) := by
  obtain ⟨received, receives, waits, incomplete, unfinished, bytes, duration⟩ := h.idle date
  have budget : ReceiveBudget c later
      { v with startDate := some later, throttle := v.throttle.reset later } later 0 0 := {
    date := rfl
    throttled := ⟨bytes, duration, Pacing.Paced.nil, by simp [BandwidthThrottle.reset]⟩
    counter := by simp [received]
    budget := by simp [BandwidthThrottle.reset]
    exact := fun _ => by omega
    overshoot := by simp only [received]; omega
    second := by simp [BandwidthThrottle.reset] }
  exact budget.ask used (by simp only [received]; omega) (by decide) receives waits incomplete
    unfinished

/-- A new slice adds its bytes to what the chain may receive. -/
theorem ReceiveChain.next {x : Nat} (h : ReceiveChain c now failed v)
    (waits : v.throttle.waits = [⟨x, some none⟩]) (order : now ≤ later) :
    ReceiveChain c later failed' (ReceiveView.ask v.throttle.sliceBytesCount
      { v with throttle := { v.throttle with waits := [] }.startSlice later }) := by
  obtain ⟨rfl, result, used, short, receives, incomplete, unfinished, start, total, budget⟩ :=
    h.wait waits
  have due : v.throttle.nextSliceStart ≤ later := by
    rcases result with result | result
    · simp at result
    · exact result.2.trans order
  have bounded : v.throttle.sliceBytesCount < 2 ^ 64 := by
    rw [budget.throttled.bytes]
    exact (Nat.div_le_self _ _).trans_lt c.receiveBandwidth.bounded
  have next : ReceiveBudget c later
      { v with throttle := { v.throttle with waits := [] }.startSlice later } start total
      v.throttle.sliceBytesCount := {
    date := budget.date
    throttled := budget.throttled.startSlice order due
    counter := budget.counter
    budget := by
      have := budget.budget
      simp only [BandwidthThrottle.startSlice, List.length_append, List.length_singleton,
        Nat.succ_mul]
      omega
    exact := budget.exact
    overshoot := budget.overshoot
    second := by
      intro many
      simp only [BandwidthThrottle.startSlice, List.length_append, List.length_singleton] at many ⊢
      rcases Nat.lt_or_ge v.throttle.firings.length 2 with few | many'
      · have one : v.throttle.firings.length = 1 := by omega
        have spent := budget.budget
        have counter := budget.counter
        rw [one, Nat.one_mul] at spent
        omega
      · exact budget.second many' }
  exact next.ask used short bounded receives rfl incomplete unfinished

/-- The receive chain stays in one of its states whatever the event. -/
theorem ReceiveMove.chain {s s' : Session} {t : Nat} {e : Event} (move : ReceiveMove s t e s')
    (h : ReceiveChain s.configuration s.now (s.failure ≠ none) s.receiveView)
    (positive : s.configuration.size.value ≠ 0) (order : s.now ≤ t)
    (failure : s.failure ≠ none → s'.failure ≠ none) :
    ReceiveChain s.configuration t (s'.failure ≠ none) s'.receiveView := by
  cases move with
  | still view => exact view ▸ h.mono order failure
  | start unstarted used view => exact view ▸ h.begins unstarted positive used
  | startUnused unstarted unused view =>
    obtain ⟨received, receives, waits, incomplete, unfinished, _, _⟩ := h.idle unstarted
    rw [view]
    exact ReceiveEnded.finish (.inl ⟨unused, by simp, received⟩) receives waits incomplete
      unfinished
  | expire x waits due view =>
    obtain ⟨rfl, _, used, short, receives, incomplete, unfinished, start, total, budget⟩ :=
      h.wait waits
    rw [view]
    exact .waiting start total (some none) ((budget.mono order).transfer rfl rfl rfl) used short
      receives rfl (.inr ⟨rfl, due⟩) incomplete unfinished
  | slice x waits view => exact view ▸ h.next waits order
  | cancelled x f waits =>
    have result := (h.wait waits).result
    simp at result
  | fill i data call event pending fits stream view report =>
    rw [view]
    obtain ⟨handler, size⟩ := call
    cases handler with
    | onReceive slice =>
      obtain ⟨rfl, positive, bounded, _, _, used, short, waits, incomplete, unfinished, start,
        total, budget⟩ := h.slice pending
      refine .receiving start total slice _ ((budget.mono order).transfer rfl rfl rfl) used short
        positive bounded rfl waits ?_ (by simp) incomplete unfinished
      intro n hn
      cases hn
      exact fits
    | onEof =>
      obtain ⟨rfl, stream, _, waits, incomplete, finished, ended⟩ := h.probe pending
      exact .probing _ ((ended.mono order).transfer rfl rfl rfl) stream rfl waits (by simp)
        incomplete finished
  | fail i f call event pending failed view report =>
    rw [view]
    obtain ⟨handler, size⟩ := call
    cases handler with
    | onReceive slice =>
      obtain ⟨rfl, positive, bounded, _, _, used, short, waits, incomplete, unfinished, start,
        total, budget⟩ := h.slice pending
      exact .receiving start total slice _ ((budget.mono order).transfer rfl rfl rfl) used short
        positive bounded rfl waits (by simp) (by simpa using failed) incomplete unfinished
    | onEof =>
      obtain ⟨rfl, stream, _, waits, incomplete, finished, ended⟩ := h.probe pending
      exact .probing _ ((ended.mono order).transfer rfl rfl rfl) stream rfl waits
        (by simpa using failed) incomplete finished
  | resume slice size n ready short view report =>
    obtain ⟨rfl, positive, bounded, fits, _, used, before, waits, incomplete, unfinished, start,
      total, budget⟩ := h.slice ready
    have fits := fits n rfl
    rw [view, sub64_of_le (by omega) bounded]
    exact ((budget.mono order).count before (by omega) (by omega) []).ask used short (by omega) rfl
      waits incomplete unfinished
  | finish slice size n ready full view report =>
    obtain ⟨rfl, positive, bounded, fits, _, used, before, waits, incomplete, unfinished, start,
      total, budget⟩ := h.slice ready
    have fits := fits n rfl
    rw [view]
    exact ReceiveEnded.finish (.inr ⟨used, full, start, _, _,
      (budget.mono order).count before (by omega) (by omega) []⟩) rfl waits incomplete unfinished
  | aborted call ready =>
    obtain ⟨handler, size⟩ := call
    cases handler with
    | onReceive slice =>
      have live := (h.slice ready).live
      exact absurd (live _ rfl) (by decide)
    | onEof =>
      have live := (h.probe ready).live
      exact absurd (live _ rfl) (by decide)
  | stop call r f ready bad view report =>
    have failed : s'.failure ≠ none := by
      have recorded : s'.failure = some f := congrArg Report.failure report
      simp [recorded]
    rw [view]
    obtain ⟨handler, size⟩ := call
    cases handler with
    | onReceive slice =>
      have slicing := h.slice ready
      obtain ⟨start, total, budget⟩ := slicing.budget
      exact .stopped failed (by simp [budget.date]) (.inr ⟨slicing.used, start, total, slice,
        (budget.mono order).transfer rfl rfl rfl⟩) rfl slicing.waits slicing.incomplete
    | onEof =>
      have probing := h.probe ready
      rcases probing.ended.mono order with
        ⟨unused, started, zero⟩ | ⟨used, _, start, total, remaining, budget⟩
      · exact .stopped failed started (.inl ⟨unused, zero⟩) rfl probing.waits probing.incomplete
      · exact .stopped failed (by simp [budget.date]) (.inr ⟨used, start, total, remaining,
          budget.transfer rfl rfl rfl⟩) rfl probing.waits probing.incomplete
  | eof size ready view report =>
    have probing := h.probe ready
    rw [view]
    exact .complete ((probing.ended.mono order).transfer rfl rfl rfl) rfl probing.waits rfl
      probing.finished

/-- A started chain that is to receive carries the account of what it received. -/
theorem ReceiveChain.budgeted (h : ReceiveChain c now failed v) (date : v.startDate = some start)
    (used : c.direction ≠ .tx) :
    ∃ total remaining, ReceiveBudget c now v start total remaining := by
  have same : ∀ start' total remaining, ReceiveBudget c now v start' total remaining →
      ∃ total remaining, ReceiveBudget c now v start total remaining := by
    intro start' total remaining budget
    cases budget.date.symm.trans date
    exact ⟨total, remaining, budget⟩
  have past : ReceiveEnded c now v →
      ∃ total remaining, ReceiveBudget c now v start total remaining := by
    rintro (⟨unused, _⟩ | ⟨_, _, start', total, remaining, budget⟩)
    · exact absurd unused used
    · exact same _ _ _ budget
  cases h with
  | unstarted none => simp [none] at date
  | waiting start' total r budget => exact same _ _ _ budget
  | receiving start' total slice r budget => exact same _ _ _ budget
  | probing r ended => exact past ended
  | complete ended => exact past ended
  | stopped failure _ account =>
    rcases account with ⟨unused, _⟩ | ⟨_, start', total, remaining, budget⟩
    · exact absurd unused used
    · exact same _ _ _ budget

/-- A chain that is not used receives nothing. -/
theorem ReceiveChain.unused_received (h : ReceiveChain c now failed v)
    (unused : c.direction = .tx) : v.received.value = 0 := by
  have past : ReceiveEnded c now v → v.received.value = 0 := by
    rintro (⟨_, _, zero⟩ | ⟨used, _⟩)
    · exact zero
    · exact absurd unused used
  cases h with
  | unstarted date received => exact received
  | waiting start total r budget used => exact absurd unused used
  | receiving start total slice r budget used => exact absurd unused used
  | probing r ended => exact past ended
  | complete ended => exact past ended
  | stopped failure date account =>
    rcases account with ⟨_, zero⟩ | ⟨used, _⟩
    · exact zero
    · exact absurd unused used

end NetTester

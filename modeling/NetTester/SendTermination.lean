import NetTester.Enabled
import NetTester.SendBuffer

namespace NetTester

/-- The events of a send chain: its waits and sends, and their handlers. -/
def Event.inSendChain : Event → Bool
  | .complete (.sendSlice _) => true
  | .complete (.sent _ _) => true
  | .invoke (.sendThrottle _) => true
  | .invoke (.onSend _) => true
  | _ => false

def Event.isSent : Event → Bool
  | .complete (.sent _ _) => true
  | _ => false

/-- A socket that takes at least one byte of every buffer that holds any, and never fails. -/
def Obliging (s : Session) (event : Nat × Event) : Prop :=
  ∀ i r, event.2 = .complete (.sent i r) →
    ∃ n, r = .ok n ∧ ∀ o ∈ s.sends, o.handler.size ≠ 0 → n ≠ 0

/-- Neither a slice nor a datagram is empty, and there is a distribution to draw the sizes of
datagrams from, which all fit the buffer. -/
structure SendsBytes (c : SessionConfiguration) : Prop where
  sampled : c.bandwidthSamplingFrequency ≤ c.sendBandwidth.value
  datagrams : c.protocol = .udp → c.packetSize.low.value ≠ 0 ∧
    c.packetSize.low.value ≤ c.packetSize.high.value ∧ DatagramsFit c

/-- Where in its round of four events a send chain is. -/
def SendView.phase (v : SendView) : Nat :=
  match v.throttle.waits, v.sends with
  | [⟨_, some _⟩], _ => 1
  | _, [⟨_, none⟩] => 2
  | _, [⟨_, some _⟩] => 3
  | _, _ => 0

/-- The events that a chain takes at most to the end, with one byte sent in every round. -/
def SendView.measure (size : Nat) (v : SendView) : Nat := 4 * (size - v.sent.value) - v.phase

/-- A send chain that neither failed nor stopped. -/
structure SendLive (s : Session) : Prop where
  taken : ∀ call r, s.sends = [⟨call, some r⟩] → ∃ n, r = .ok n ∧ n ≠ 0
  alive : s.assertionFailed = false
  running : s.statistics.startDate ≠ none → s.calls.count .finishSend = 0 →
    s.sends ≠ [] ∨ s.sendThrottle.waits ≠ []

variable {c : SessionConfiguration} {draws : Nat → Nat} {now : Nat} {v w : SendView}
  {s s' : Session} {t : Nat} {e : Event}

theorem SendsBytes.slice (h : SendsBytes c) (frequency : c.bandwidthSamplingFrequency ≠ 0) :
    c.sendSlice ≠ 0 :=
  (Nat.div_pos h.sampled (Nat.pos_of_ne_zero frequency)).ne'

theorem SendOffer.nonempty {call : SendCall} (h : SendOffer c draws v call) (bytes : SendsBytes c)
    (within : c.protocol = .udp → DrawsWithin c draws) : call.size ≠ 0 := by
  cases hp : c.protocol with
  | tcp => exact h.stream hp
  | udp =>
    obtain ⟨m, drawn, size⟩ := h.datagram hp
    have low := (drawn.within (within hp)).1
    have some := (bytes.datagrams hp).1
    have positive := h.positive
    omega

/-- What asking leaves outstanding, unless the assertion fails. -/
theorem SendAsk.outstanding {slice : Nat} (ask : SendAsk c draws slice v w)
    (sends : v.sends = []) (waits : v.throttle.waits = []) (alive : w.assertionFailed = false) :
    (∃ x, w.throttle.waits = [⟨x, none⟩] ∧ w.sends = [] ∧ slice = 0) ∨
      ∃ call, slice ≠ 0 ∧ w.throttle.waits = [] ∧ w.sends = [⟨call, none⟩] := by
  cases ask with
  | wait zero =>
    exact .inl ⟨v.throttle.nextSliceStart,
      by simp [BandwidthThrottle.delay, waits, Operation.initiate], sends, zero⟩
  | offer positive call offered =>
    exact .inr ⟨call, positive, waits, by simp [sends, Operation.initiate]⟩
  | assertion => simp at alive

theorem SendSlices.short {call : SendCall} {r : Option (Except ErrorCode Nat)}
    (h : SendSlices c draws now v call r) : v.sent.value < c.size.value := by
  obtain ⟨start, budget⟩ := h.budget
  have within := budget.budget
  have positive := h.offer.positive
  omega

/-- What one event does to a live send chain that has data to send. -/
structure SendAdvance (s s' : Session) : Prop where
  live : SendLive s'
  measure_le : s'.sendView.measure s.configuration.size.value ≤
    s.sendView.measure s.configuration.size.value
  measure_lt : s.statistics.startDate ≠ none → s'.sendView ≠ s.sendView →
    s'.sendView.measure s.configuration.size.value < s.sendView.measure s.configuration.size.value

theorem SendAdvance.of_phase (live : SendLive s') {k l : Nat} (phase : s.sendView.phase = k)
    (phase' : s'.sendView.phase = l)
    (lower : 4 * (s.configuration.size.value - s'.sendView.sent.value) - l <
      4 * (s.configuration.size.value - s.sendView.sent.value) - k) : SendAdvance s s' := by
  have lower : s'.sendView.measure s.configuration.size.value <
      s.sendView.measure s.configuration.size.value := by
    rw [SendView.measure, SendView.measure, phase, phase']
    exact lower
  exact ⟨live, lower.le, fun _ _ => lower⟩

/-- A chain that asks for its next bytes comes closer to its end, by the slice that it got or by the
bytes that were sent. -/
theorem SendAsk.advance {slice k : Nat} {u : SendView}
    (ask : SendAsk s.configuration s.draws slice u s'.sendView) (sends : u.sends = [])
    (waits : u.throttle.waits = []) (alive : s'.assertionFailed = false)
    (phase : s.sendView.phase = k)
    (lower : 4 * (s.configuration.size.value - u.sent.value) - (if slice = 0 then 0 else 2) <
      4 * (s.configuration.size.value - s.sendView.sent.value) - k) : SendAdvance s s' := by
  have sent := ask.frame.1
  obtain ⟨x, waits, sends, zero⟩ | ⟨call, positive, waits, sends⟩ :=
    ask.outstanding sends waits alive
  · have same : s'.sends = [] := sends
    have pending : s'.sendThrottle.waits = [⟨x, none⟩] := waits
    refine .of_phase ⟨by simp [same], alive, by simp [pending]⟩ phase (l := 0) ?_ ?_
    · simp [SendView.phase, waits, sends]
    · rw [sent]
      simpa [zero] using lower
  · have pending : s'.sends = [⟨call, none⟩] := sends
    refine .of_phase ⟨by simp [pending], alive, by simp [pending]⟩ phase (l := 2) ?_ ?_
    · simp [SendView.phase, waits, sends]
    · rw [sent]
      simpa [positive] using lower

theorem SendLive.of_view (h : SendLive s) (view : s'.sendView = s.sendView)
    (alive : s'.assertionFailed = false) : SendLive s' := by
  have sends : s'.sends = s.sends := congrArg SendView.sends view
  refine ⟨?_, alive, fun started unfinished => ?_⟩
  · rw [sends]
    exact h.taken
  · rw [sends, show s'.sendThrottle = s.sendThrottle from congrArg SendView.throttle view]
    apply h.running
    · rwa [show s'.statistics.startDate = _ from congrArg SendView.startDate view] at started
    · rwa [show s'.calls.count .finishSend = _ from congrArg SendView.finishes view] at unfinished

/-- Under an obliging socket the chain stays live, and comes closer to its end. -/
theorem SendLive.step (h : SendLive s) (sound : Sound s) (hs : s.step (t, e) = some s')
    (used : s.configuration.direction ≠ .rx) (bytes : SendsBytes s.configuration)
    (frequency : s.configuration.bandwidthSamplingFrequency ≠ 0)
    (within : s.configuration.protocol = .udp → DrawsWithin s.configuration s.draws)
    (obliging : Obliging s (t, e))
    (alive : s'.assertionFailed = false) : SendAdvance s s' := by
  cases Session.step_sendMove sound.tidy hs with
  | still view other =>
    exact ⟨h.of_view view alive, by rw [view], fun _ moved => absurd view moved⟩
  | start unstarted _ view =>
    have idle := sound.send.idle unstarted
    have before : s.sendThrottle.waits = [] := idle.waits
    have sends : s'.sends = [] := by
      rw [show s'.sends = s.sends from congrArg SendView.sends view]
      exact idle.sends
    have waits : s'.sendThrottle.waits = [⟨t, none⟩] := by
      rw [show s'.sendThrottle = _ from congrArg SendView.throttle view]
      simp [BandwidthThrottle.delay, BandwidthThrottle.reset, before, Operation.initiate]
    refine ⟨⟨by simp [sends], alive, by simp [waits]⟩, ?_, fun started => absurd unstarted started⟩
    have phase : s'.sendView.phase = 0 := by
      simp [SendView.phase, Session.sendView, sends, waits]
    have phase' : s.sendView.phase = 0 := by
      simp [SendView.phase, idle.sends, idle.waits]
    have sent : s'.sendView.sent = s.sendView.sent := by rw [view]
    rw [SendView.measure, SendView.measure, phase, phase', sent]
  | startUnused unstarted unused view => exact absurd unused used
  | expire x waits due view =>
    have waiting := sound.send.wait waits
    have short := waiting.short
    have sends : s.sends = [] := waiting.sends
    have after : s'.sends = [] := by
      rw [show s'.sends = s.sends from congrArg SendView.sends view, sends]
    have pending : s'.sendThrottle.waits = [⟨x, some none⟩] := by
      rw [show s'.sendThrottle = _ from congrArg SendView.throttle view]
    have sent : s'.sendView.sent = s.sendView.sent := by rw [view]
    refine .of_phase ⟨by simp [after], alive, by simp [pending]⟩ (k := 0) (l := 1) ?_ ?_ ?_
    · simp [SendView.phase, Session.sendView, waits, sends]
    · simp [SendView.phase, view]
    · rw [sent]
      omega
  | slice x waits view =>
    have waiting := sound.send.wait waits
    have short := waiting.short
    have slice : s.sendThrottle.sliceBytesCount ≠ 0 := by
      rw [show s.sendThrottle.sliceBytesCount = _ from waiting.spent.2]
      exact bytes.slice frequency
    refine view.advance waiting.sends rfl alive (k := 1) ?_ ?_
    · simp [SendView.phase, Session.sendView, waits]
    · rw [if_neg slice]
      simp only
      omega
  | cancelled x f waits =>
    have result := (sound.send.wait waits).result
    simp at result
  | fill i n call event pending fits view =>
    have sending := sound.send.slice pending
    have short := sending.short
    have waits : s.sendThrottle.waits = [] := sending.waits
    obtain ⟨m, eq, taken⟩ := obliging i _ event
    obtain rfl := Except.ok.inj eq
    have nonzero : n ≠ 0 :=
      taken ⟨call, none⟩ (by simp [pending]) (sending.offer.nonempty bytes within)
    have queued : s'.sends = [⟨call, some (.ok n)⟩] := congrArg SendView.sends view
    have waiting : s'.sendThrottle.waits = [] := by
      rw [show s'.sendThrottle = s.sendThrottle from congrArg SendView.throttle view, waits]
    have sent : s'.sendView.sent = s.sendView.sent := by rw [view]
    refine .of_phase ⟨?_, alive, by simp [queued]⟩ (k := 2) (l := 3) ?_ ?_ ?_
    · intro call' r eq
      rw [queued] at eq
      simp only [List.cons.injEq, Operation.mk.injEq, Option.some.injEq, and_true] at eq
      exact ⟨n, eq.2.symm, nonzero⟩
    · simp [SendView.phase, Session.sendView, waits, pending]
    · simp [SendView.phase, Session.sendView, queued, waiting]
    · rw [sent]
      omega
  | fail i f call event pending failed view =>
    obtain ⟨n, impossible, _⟩ := obliging i _ event
    cases impossible
  | resume call n ready short view =>
    have sending := sound.send.slice ready
    have before := sending.short
    have waits : s.sendThrottle.waits = [] := sending.waits
    obtain ⟨m, eq, nonzero⟩ := h.taken call _ ready
    obtain rfl := Except.ok.inj eq
    have sum : (s.statistics.sentBytesCount.add n).value = s.sendView.sent.value + n :=
      sending.sum.1
    refine view.advance rfl waits alive (k := 3) ?_ ?_
    · simp [SendView.phase, Session.sendView, waits, ready]
    · simp only [sum]
      split <;> omega
  | finish call n ready full view =>
    have sending := sound.send.slice ready
    have before := sending.short
    have waits : s.sendThrottle.waits = [] := sending.waits
    have finished : s'.calls.count .finishSend ≠ 0 := by
      rw [show s'.calls.count .finishSend = _ from congrArg SendView.finishes view]
      exact Nat.succ_ne_zero _
    have sends : s'.sends = [] := congrArg SendView.sends view
    have sent : s'.sendView.sent = s.statistics.sentBytesCount.add n := congrArg SendView.sent view
    refine .of_phase ⟨by simp [sends], alive, fun _ unfinished => absurd unfinished finished⟩
      (k := 3) ?_ rfl ?_
    · simp [SendView.phase, Session.sendView, waits, ready]
    · rw [sent]
      omega
  | aborted call ready => exact absurd (sound.send_system ready) (by decide)
  | stop call f ready view =>
    obtain ⟨n, impossible, _⟩ := h.taken call _ ready
    cases impossible

/-- What asking leaves outstanding has not completed. -/
theorem SendAsk.fresh {slice : Nat} (ask : SendAsk c draws slice v w) (sends : v.sends = [])
    (waits : v.throttle.waits = []) :
    (∀ x f, w.throttle.waits ≠ [⟨x, some f⟩]) ∧ ∀ call r, w.sends ≠ [⟨call, some r⟩] := by
  cases ask with
  | wait => simp [BandwidthThrottle.delay, sends, waits, Operation.initiate]
  | offer => simp [sends, waits, Operation.initiate]
  | assertion => simp [sends, waits]

theorem onSend_fresh (u : Session) (sends : u.sends = []) (waits : u.sendThrottle.waits = [])
    (r : Except ErrorCode Nat) (call : SendCall) :
    ∀ call' r', (u.onSend r call).sends ≠ [⟨call', some r'⟩] := by
  intro call' r'
  simp only [Session.onSend]
  split
  next => simp [sends]
  next => simp [Session.abort, sends]
  next n =>
    split
    next =>
      exact (SendAsk.fresh (Session.asyncSend_sendView (u.countSent call.offset n) _) sends
        waits).2 call' r'
    next =>
      have view := Session.finishSend_sendView (u.countSent call.offset n) sends
      rw [show (u.countSent call.offset n).finishSend.sends = _ from
        congrArg SendView.sends view]
      simp [SendView.finish, Session.sendView, Session.countSent, sends]

/-- An event of the send chain moves it. -/
theorem moved_of_inSendChain (sound : Sound s) (hs : s.step (t, e) = some s')
    (chain : e.inSendChain = true) :
    s.statistics.startDate ≠ none ∧ s'.sendView ≠ s.sendView := by
  have started : s.sends ≠ [] ∨ s.sendThrottle.waits ≠ [] → s.statistics.startDate ≠ none := by
    rintro outstanding date
    have idle := sound.send.idle date
    exact outstanding.elim (fun sends => sends idle.sends) fun waits => waits idle.waits
  have completes : ∀ {call r}, s.sends = [⟨call, none⟩] → s'.sends = [⟨call, some r⟩] →
      s.statistics.startDate ≠ none ∧ s'.sendView ≠ s.sendView := by
    intro call r pending after
    refine ⟨started (.inl (by simp [pending])), fun same => ?_⟩
    have same : s'.sends = s.sends := congrArg SendView.sends same
    simp [pending, after] at same
  cases Session.step_cases sound.tidy hs with
  | sent n call pending => exact completes pending rfl
  | sendFails f call pending => exact completes pending rfl
  | sendExpires x pending =>
    refine ⟨started (.inr (by simp [pending])), fun same => ?_⟩
    have same := congrArg (fun v => v.throttle.waits) same
    simp [Session.sendView, pending] at same
  | sendSlice x ready =>
    have waiting := sound.send.wait ready
    refine ⟨started (.inr (by simp [ready])), fun same => ?_⟩
    let throttle := { s.sendThrottle with waits := [] }.startSlice t
    have ask := Session.asyncSend_sendView { s with now := t, sendThrottle := throttle }
      s.sendThrottle.sliceBytesCount
    exact (ask.fresh waiting.sends rfl).1 x none
      ((congrArg (fun v => v.throttle.waits) same).trans ready)
  | sendCancelled x f ready =>
    have result := (sound.send.wait ready).result
    simp at result
  | onSend call r ready =>
    have sending := sound.send.slice ready
    refine ⟨started (.inl (by simp [ready])), fun same => ?_⟩
    exact onSend_fresh { s with now := t, sends := [] } rfl sending.waits r call call r
      ((congrArg SendView.sends same).trans ready)
  | _ => simp [Event.inSendChain] at chain

/-- Whether a send has completed that its handler has not counted yet. -/
def Session.uncounted (s : Session) : Nat := s.sends.countP fun o => o.result.isSome

/-- Every completed send was counted with at least one byte, or waits for its handler. -/
theorem SendLive.completions (h : SendLive s) (sound : Sound s) (hs : s.step (t, e) = some s')
    (used : s.configuration.direction ≠ .rx) {count : Nat}
    (counted : count ≤ s.statistics.sentBytesCount.value + s.uncounted) :
    count + (if e.isSent = true then 1 else 0) ≤
      s'.statistics.sentBytesCount.value + s'.uncounted := by
  have queues : ∀ {call r}, s.sends = [⟨call, none⟩] → s'.sends = [⟨call, some r⟩] →
      s'.statistics = s.statistics →
      count + 1 ≤ s'.statistics.sentBytesCount.value + s'.uncounted := by
    intro call r pending after same
    have before : s.uncounted = 0 := by simp [Session.uncounted, pending]
    have one : s'.uncounted = 1 := by simp [Session.uncounted, after]
    rw [one, same]
    omega
  by_cases sent : ∃ i r, e = .complete (.sent i r)
  · obtain ⟨i, r, rfl⟩ := sent
    cases Session.step_cases sound.tidy hs with
    | sent n call pending => exact queues pending rfl rfl
    | sendFails f call pending => exact queues pending rfl rfl
  · have quiet : e.isSent = false := by
      unfold Event.isSent
      split
      next i r => exact absurd ⟨i, r, rfl⟩ sent
      next => rfl
    rw [quiet]
    simp only [Bool.false_eq_true, if_false, Nat.add_zero]
    apply counted.trans
    have keep : s'.sends = s.sends →
        s'.statistics.sentBytesCount = s.statistics.sentBytesCount →
        s.statistics.sentBytesCount.value + s.uncounted ≤
          s'.statistics.sentBytesCount.value + s'.uncounted := by
      intro sends bytes
      rw [Session.uncounted, Session.uncounted, sends, bytes]
    have taken : ∀ call n, s.sends = [⟨call, some (.ok n)⟩] →
        s'.statistics.sentBytesCount = s.statistics.sentBytesCount.add n →
        s.statistics.sentBytesCount.value + s.uncounted ≤
          s'.statistics.sentBytesCount.value + s'.uncounted := by
      intro call n ready bytes
      obtain ⟨m, eq, nonzero⟩ := h.taken call _ ready
      obtain rfl := Except.ok.inj eq
      have sum : (s.statistics.sentBytesCount.add n).value =
        s.statistics.sentBytesCount.value + n := (sound.send.slice ready).sum.1
      have one : s.uncounted = 1 := by simp [Session.uncounted, ready]
      rw [bytes, sum, one]
      omega
    cases Session.step_sendMove sound.tidy hs with
    | still view =>
      exact keep (congrArg SendView.sends view) (congrArg SendView.sent view)
    | start unstarted _ view =>
      exact keep (congrArg SendView.sends view) (congrArg SendView.sent view)
    | startUnused unstarted unused view => exact absurd unused used
    | expire x waits due view =>
      exact keep (congrArg SendView.sends view) (congrArg SendView.sent view)
    | slice x waits view =>
      have idle : s.sends = [] := (sound.send.wait waits).sends
      have same : s'.statistics.sentBytesCount = s.statistics.sentBytesCount := view.frame.1
      have none : s.uncounted = 0 := by simp [Session.uncounted, idle]
      rw [same, none]
      omega
    | cancelled x f waits =>
      have result := (sound.send.wait waits).result
      simp at result
    | fill i n call event => exact absurd ⟨i, _, event⟩ sent
    | fail i f call event => exact absurd ⟨i, _, event⟩ sent
    | resume call n ready short view => exact taken call n ready view.frame.1
    | finish call n ready full view => exact taken call n ready (congrArg SendView.sent view)
    | aborted call ready => exact absurd (sound.send_system ready) (by decide)
    | stop call f ready view =>
      obtain ⟨n, impossible, _⟩ := h.taken call _ ready
      cases impossible

/-- What a run of a session that has data to send keeps, as long as its socket is obliging. -/
structure SendRun (c : SessionConfiguration) (draws : Nat → Nat) (events : List (Nat × Event))
    (s : Session) : Prop where
  sound : Sound s
  configuration : s.configuration = c
  draws : s.draws = draws
  lagged : Lagged c s.sendView
  live : SendLive s
  completions : events.countP (fun event => event.2.isSent) ≤
    s.statistics.sentBytesCount.value + s.uncounted
  rounds : events.countP (fun event => event.2.inSendChain) + s.sendView.measure c.size.value ≤
    4 * c.size.value

theorem SendRun.create (accepted : Accepted c) (draws : Nat → Nat) (now : Nat) :
    SendRun c draws [] (Session.create c draws now) where
  sound := .create accepted draws now
  configuration := rfl
  draws := rfl
  lagged := .create c draws now
  live := ⟨by simp [Session.create], rfl, by simp [Session.create]⟩
  completions := Nat.zero_le _
  rounds := by
    simp [SendView.measure, SendView.phase, Session.create, Session.sendView,
      BandwidthThrottle.create]

theorem SendRun.step {events : List (Nat × Event)} (h : SendRun c draws events s)
    (accepted : Accepted c) (hs : s.step (t, e) = some s') (used : c.direction ≠ .rx)
    (bytes : SendsBytes c) (within : c.protocol = .udp → DrawsWithin c draws)
    (obliging : Obliging s (t, e)) :
    SendRun c draws (events ++ [(t, e)]) s' ∧ (e.inSendChain = true →
      s'.sendView.measure c.size.value < s.sendView.measure c.size.value) := by
  obtain ⟨sound, rfl, rfl, lagged, live, completions, rounds⟩ := h
  have frame := Session.step_frame sound.tidy hs
  have move := Session.step_sendMove sound.tidy hs
  have lagged' := move.lagged sound.send lagged
  have alive : s'.assertionFailed = false := by
    cases hp : s.configuration.protocol with
    | tcp =>
      refine (sound.step hs).send.alive fun udp => ?_
      rw [frame.configuration, hp] at udp
      cases udp
    | udp => exact move.alive sound.send lagged' (bytes.datagrams hp).2.2 (within hp) live.alive
  have advance := live.step sound hs used bytes (accepted_iff.mp accepted).1 within obliging alive
  have lower : e.inSendChain = true → s'.sendView.measure s.configuration.size.value <
      s.sendView.measure s.configuration.size.value := by
    intro chain
    obtain ⟨started, moved⟩ := moved_of_inSendChain sound hs chain
    exact advance.measure_lt started moved
  refine ⟨⟨sound.step hs, frame.configuration, frame.draws, lagged', advance.live, ?_, ?_⟩, lower⟩
  · rw [List.countP_append, List.countP_singleton]
    exact live.completions sound hs used completions
  · rw [List.countP_append, List.countP_singleton]
    have upper := advance.measure_le
    split
    next chain =>
      have := lower chain
      omega
    next => omega

/-- Until its end a live chain has an event that its socket may give it. -/
theorem SendRun.progress {events : List (Nat × Event)} (h : SendRun c draws events s)
    (bytes : SendsBytes c) (within : c.protocol = .udp → DrawsWithin c draws)
    (started : s.statistics.startDate ≠ none) (unfinished : s.calls.count .finishSend = 0) :
    ∃ event s', event.2.inSendChain = true ∧ Obliging s event ∧ s.step event = some s' := by
  obtain ⟨sound, rfl, rfl, _, live, _⟩ := h
  have event : ∀ e, s.Enabled e → e.inSendChain = true → (∀ i r, e ≠ .complete (.sent i r)) →
      ∃ event s', event.2.inSendChain = true ∧ Obliging s event ∧ s.step event = some s' := by
    rintro e ⟨t, s', hs⟩ chain other
    exact ⟨(t, e), s', chain, fun i r sent => absurd sent (other i r), hs⟩
  rcases live.running started unfinished with sends | waits
  · obtain ⟨⟨call, r⟩, sends⟩ : ∃ o, s.sends = [o] := by
      have single := sound.tidy.sends
      exact List.length_eq_one_iff.mp (by have := List.length_pos_iff.mpr sends; omega)
    cases r with
    | none =>
      have nonempty := (sound.send.slice sends).offer.nonempty bytes within
      obtain ⟨t, s', hs⟩ := Session.enabled_sent live.alive sends (n := 1) (by omega)
      refine ⟨_, s', rfl, fun i r sent => ⟨1, ?_, fun _ _ _ => one_ne_zero⟩, hs⟩
      cases sent
      rfl
    | some r => exact event _ (Session.enabled_onSend live.alive sends) rfl (by simp)
  · obtain ⟨⟨x, r⟩, waits⟩ : ∃ o, s.sendThrottle.waits = [o] := by
      have single := sound.tidy.sendWaits
      exact List.length_eq_one_iff.mp (by have := List.length_pos_iff.mpr waits; omega)
    cases r with
    | none => exact event _ (Session.enabled_sendSlice live.alive waits) rfl (by simp)
    | some r => exact event _ (Session.enabled_sendThrottle live.alive waits) rfl (by simp)

theorem OpenMove.started (move : OpenMove s t s') (started : s.statistics.startDate ≠ none) :
    s'.statistics.startDate ≠ none := by
  cases move with
  | still opens posts date => exact date ▸ started
  | opened i failure completes posts date => exact date ▸ started
  | connect i failure after ready opens posts date => simp [date]
  | timer i posted opens posts date => exact date ▸ started
  | timerAndTransfer i posted opens posts date => simp [date]

/-- From a started chain events of the chain alone lead to its end. -/
theorem SendRun.finishes {events : List (Nat × Event)} (h : SendRun c draws events s)
    (accepted : Accepted c) (used : c.direction ≠ .rx) (bytes : SendsBytes c)
    (within : c.protocol = .udp → DrawsWithin c draws)
    (started : s.statistics.startDate ≠ none) :
    ∃ more s', Machine.Along Session.step
        (fun s event => event.2.inSendChain = true ∧ Obliging s event) s more ∧
      Machine.run Session.step s more = some s' ∧ s'.calls.count .finishSend = 1 := by
  have next : ∀ s : Session, (∃ events, SendRun c draws events s) ∧ s.statistics.startDate ≠ none →
      ¬s.calls.count .finishSend = 1 → ∃ event s', (event.2.inSendChain = true ∧ Obliging s event) ∧
        s.step event = some s' ∧
        ((∃ events, SendRun c draws events s') ∧ s'.statistics.startDate ≠ none) ∧
        s'.sendView.measure c.size.value < s.sendView.measure c.size.value := by
    rintro s ⟨⟨events, h⟩, started⟩ going
    have ends := h.sound.send.finishes (h.configuration ▸ used) h.sound.size
    have unfinished : s.calls.count .finishSend = 0 := by
      have ends : s.calls.count .finishSend = _ := ends
      split at ends
      next => exact absurd ends going
      next => exact ends
    obtain ⟨⟨t, e⟩, s', chain, obliging, hs⟩ := h.progress bytes within started unfinished
    obtain ⟨after, lower⟩ := h.step accepted hs used bytes within obliging
    exact ⟨(t, e), s', ⟨chain, obliging⟩, hs, ⟨⟨_, after⟩,
      (Session.step_frame h.sound.tidy hs).opening.started started⟩, lower chain⟩
  obtain ⟨more, s', along, reach, finished, _⟩ :=
    Machine.exists_run_of_measure next ⟨⟨events, h⟩, started⟩
  exact ⟨more, s', along, reach, finished⟩

end NetTester

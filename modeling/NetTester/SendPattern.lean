import NetTester.Sound

namespace NetTester

/-- The first bytes of the buffer that a send operation was offered. -/
def SendCall.bytes (n : Nat) (call : SendCall) : List UInt8 :=
  (List.range n).map fun i => sendBuffer (call.offset + i)

/-- The bytes of a send that has completed, while its result is queued for the handler. -/
def queuedBytes (o : Operation SendCall (Except ErrorCode Nat)) : List UInt8 :=
  match o.result with
  | some (.ok n) => o.handler.bytes n
  | _ => []

/-- The bytes that the socket has accepted: those of the handlers that have run, and those of a
send whose handler has yet to run. -/
def Session.acceptedBySocket (s : Session) : List UInt8 :=
  s.accepted ++ s.sends.flatMap queuedBytes

section

variable {c : SessionConfiguration} {draws : Nat → Nat} {now : Nat} {failed : Prop} {v : SendView}

theorem SendChain.accepted (h : SendChain c draws now failed v) :
    v.accepted = pattern v.sent.value := by
  cases h with
  | unstarted date sent accepted => simp [sent, accepted]
  | unused direction date sent accepted => simp [sent, accepted]
  | waiting start r budget => exact budget.accepted
  | sending start call r budget => exact budget.accepted
  | complete start budget => exact budget.accepted
  | stopped start remaining cause assertion budget => exact budget.accepted

theorem SendChain.sent_le (h : SendChain c draws now failed v) : v.sent.value ≤ c.size.value := by
  cases h with
  | unstarted date sent => omega
  | unused direction date sent => omega
  | waiting start r budget => exact budget.sent_le
  | sending start call r budget => exact budget.sent_le
  | complete start budget => exact budget.sent_le
  | stopped start remaining cause assertion budget => exact budget.sent_le

theorem SendChain.inBuffer (h : SendChain c draws now failed v) :
    ∀ o ∈ v.sends, o.handler.offset + o.handler.size ≤ bufferSize := by
  intro o member
  cases h with
  | sending start call r budget offer used sends =>
    obtain rfl : o = ⟨call, r⟩ := by simpa [sends] using member
    exact offer.inBuffer
  | _ => simp_all

/-- A chain that is used ends once, with its last byte. -/
theorem SendChain.finishes (h : SendChain c draws now failed v) (used : c.direction ≠ .rx)
    (positive : c.size.value ≠ 0) :
    v.finishes = if v.sent.value = c.size.value then 1 else 0 := by
  cases h with
  | unstarted date sent accepted sends waits incomplete alive unfinished =>
    rw [unfinished, if_neg (by omega)]
  | unused direction => exact absurd direction used
  | waiting start r budget _ short sends waits result incomplete alive unfinished =>
    rw [unfinished, if_neg short.ne]
  | sending start call r budget offer _ sends waits fits live incomplete alive unfinished =>
    have within := budget.budget
    have positive := offer.positive
    rw [unfinished, if_neg (by omega)]
  | complete start budget _ full sends waits complete alive finished => rw [finished, if_pos full]
  | stopped start remaining cause assertion budget _ short sends waits incomplete unfinished =>
    rw [unfinished, if_neg short.ne]

/-- Datagrams that fit behind any offset keep the assertion. -/
theorem SendChain.alive (h : SendChain c draws now failed v)
    (fits : c.protocol = .udp → ∀ m, Drawn c draws m → m ≤ bufferSize - 255) :
    v.assertionFailed = false := by
  cases h with
  | stopped start remaining cause assertion =>
    refine Bool.eq_false_iff.mpr fun failed => ?_
    obtain ⟨udp, m, drawn, outside⟩ := assertion failed
    have := fits udp m drawn
    omega
  | _ => assumption

end

/-- A drawn size lies in the range that the configuration gives. -/
theorem Drawn.within {c : SessionConfiguration} {draws : Nat → Nat} {m : Nat} (h : Drawn c draws m)
    (range : ∀ i, c.packetSize.low.value ≤ draws i ∧ draws i ≤ c.packetSize.high.value) :
    c.packetSize.low.value ≤ m ∧ m ≤ c.packetSize.high.value := by
  unfold Drawn at h
  split at h
  next same => have := range 0; omega
  next =>
    obtain ⟨k, rfl⟩ := h
    exact range k

theorem Session.acceptedBySocket_pattern {s : Session} (h : Sound s) :
    ∃ n, n ≤ s.configuration.size.value ∧ s.acceptedBySocket = pattern n := by
  have idle : s.sends.flatMap queuedBytes = [] →
      ∃ n, n ≤ s.configuration.size.value ∧ s.acceptedBySocket = pattern n := by
    intro none
    refine ⟨_, h.send.sent_le, ?_⟩
    rw [acceptedBySocket, none, List.append_nil]
    exact h.send.accepted
  cases h.send with
  | sending start call r budget offer used sends waits fits =>
    have sends : s.sends = [⟨call, r⟩] := sends
    cases hr : r with
    | none => exact idle (by simp [sends, queuedBytes, hr])
    | some result =>
      cases result with
      | error f => exact idle (by simp [sends, queuedBytes, hr])
      | ok n =>
        have within := budget.budget
        have inSlice := offer.inSlice
        have count := fits n hr
        refine ⟨s.statistics.sentBytesCount.value + n, ?_, ?_⟩
        · have : s.sendView.sent.value = s.statistics.sentBytesCount.value := rfl
          omega
        · have accepted : s.accepted = pattern s.statistics.sentBytesCount.value := budget.accepted
          have offset : call.offset = s.statistics.sentBytesCount.value % 2 ^ 8 := offer.offset
          simp [acceptedBySocket, sends, queuedBytes, SendCall.bytes, hr, pattern_add, accepted,
            offset]
  | _ => exact idle (by simp_all [sendView])

/-- The send chain writes the pattern: no byte is lost, repeated or taken from outside the buffer,
and the chain ends with the last one. -/
theorem sends_pattern {c : SessionConfiguration} (accepted : Accepted c)
    (used : c.direction ≠ .rx) {draws : Nat → Nat}
    (packets : c.protocol = .udp → 1 ≤ c.packetSize.low.value ∧
      c.packetSize.low.value ≤ c.packetSize.high.value ∧
      c.packetSize.high.value ≤ bufferSize - 255 ∧
      ∀ i, c.packetSize.low.value ≤ draws i ∧ draws i ≤ c.packetSize.high.value)
    {now : Nat} {events : List (Nat × Event)} {s : Session}
    (reach : Session.Reaches c draws now events s) :
    s.accepted = pattern s.statistics.sentBytesCount.value ∧
      s.accepted.length = s.statistics.sentBytesCount.value ∧
      s.statistics.sentBytesCount.value ≤ c.size.value ∧
      (∃ n, n ≤ c.size.value ∧ s.acceptedBySocket = pattern n) ∧
      (∀ o ∈ s.sends, o.handler.offset + o.handler.size ≤ bufferSize) ∧
      s.assertionFailed = false ∧
      s.calls.count .finishSend =
        if s.statistics.sentBytesCount.value = c.size.value then 1 else 0 := by
  obtain ⟨sound, rfl, rfl⟩ := Sound.of_reaches accepted reach
  have written : s.accepted = pattern s.statistics.sentBytesCount.value := sound.send.accepted
  refine ⟨written, by rw [written, pattern_length], sound.send.sent_le,
    Session.acceptedBySocket_pattern sound, sound.send.inBuffer, sound.send.alive ?_,
    sound.send.finishes used sound.size⟩
  intro udp m drawn
  obtain ⟨_, _, room, range⟩ := packets udp
  exact (drawn.within range).2.trans room

theorem sends_pattern_partial : ∃ s, Session.Reaches
    { defaultConfiguration "127.0.0.1:1234" ⟨2, .iec, by decide⟩ with protocol := .udp }
    (fun _ => 65472) 0
    [(0, .invoke (.posted 0)), (0, .complete (.sendSlice 0)), (0, .invoke (.sendThrottle 0)),
      (0, .complete (.sent 0 (.ok 1))), (0, .invoke (.onSend 0))]
    s ∧ s.accepted = pattern 1 := by
  refine Machine.exists_run (fun s => s.statistics.sentBytesCount.value) (b := 1) rfl ?_
  intro s reach sent
  have written := sends_pattern (accepted_iff.mpr (by decide)) (by decide)
    (fun _ => ⟨by decide, by decide, by decide, fun _ => by decide⟩) reach
  rw [written.1, sent]

end NetTester

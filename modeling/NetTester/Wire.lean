import NetTester.Delivery
import NetTester.SendPattern

namespace NetTester

/-- The bytes that an event hands to the socket. -/
def Session.push (s : Session) : Event → List UInt8
  | .complete (.sent i (.ok n)) => (s.sends[i]?.map fun o => o.handler.bytes n).getD []
  | _ => []

/-- The bytes of a completed receive whose handler has yet to run. -/
def Session.heldBytes (s : Session) : Nat :=
  (s.receives.map fun o => match o.result with
    | some (.ok n) => n
    | _ => 0).sum

def SendView.taken (v : SendView) : List UInt8 := v.accepted ++ v.sends.flatMap queuedBytes

theorem SendAsk.taken {c : SessionConfiguration} {draws : Nat → Nat} {slice : Nat}
    {v w : SendView} (h : SendAsk c draws slice v w) : w.taken = v.taken := by
  cases h with
  | wait zero => rfl
  | offer positive call offered => simp [SendView.taken, Operation.initiate, queuedBytes]
  | assertion udp m drawn outside => rfl

variable {s s' : Session} {t : Nat} {e : Event}

/-- A send that completes with a count was pending, and it takes part of what it was offered. -/
theorem completeSend_ok (sound : Sound s) {i n : Nat}
    (hs : s.step (t, .complete (.sent i (.ok n))) = some s') :
    ∃ call, s.sends = [⟨call, none⟩] ∧ n ≤ call.size ∧
      s.push (.complete (.sent i (.ok n))) = call.bytes n ∧
      s' = { s with now := t, sends := [⟨call, some (.ok n)⟩] } := by
  cases Session.step_cases sound.tidy hs with
  | sent n call pending fits =>
    exact ⟨call, pending, fits, by simp [Session.push, pending], rfl⟩

/-- The socket accepts the bytes of the sends that complete, one after the other. -/
theorem acceptedBySocket_step (sound : Sound s) (hs : s.step (t, e) = some s') :
    s'.acceptedBySocket = s.acceptedBySocket ++ s.push e := by
  by_cases taking : ∃ i n, e = .complete (.sent i (.ok n))
  · obtain ⟨i, n, rfl⟩ := taking
    obtain ⟨call, pending, _, bytes, rfl⟩ := completeSend_ok sound hs
    simp [Session.acceptedBySocket, pending, queuedBytes, bytes]
  have none : s.push e = [] := by
    unfold Session.push
    split
    next i n => exact absurd ⟨i, n, rfl⟩ taking
    next => rfl
  have same : s'.sendView.taken = s.sendView.taken := by
    cases Session.step_sendMove sound.tidy hs with
    | still view => rw [view]
    | start unstarted used view =>
      rw [view]
      rfl
    | startUnused unstarted unused view =>
      rw [view]
      rfl
    | expire x waits due view =>
      rw [view]
      rfl
    | slice x waits view => exact view.taken
    | cancelled x f waits =>
      have result := (sound.send.wait waits).result
      simp at result
    | fill i n call event => exact absurd ⟨i, n, event⟩ taking
    | fail i f call event pending failed view =>
      rw [view]
      simp [SendView.taken, Session.sendView, pending, queuedBytes]
    | resume call n ready short view =>
      rw [view.taken]
      simp [SendView.taken, Session.sendView, ready, queuedBytes, SendCall.bytes]
    | finish call n ready full view =>
      rw [view]
      simp [SendView.taken, SendView.finish, Session.sendView, ready, queuedBytes, SendCall.bytes]
    | aborted call ready =>
      have live := (sound.send.slice ready).live
      exact absurd (live _ rfl) (by decide)
    | stop call f ready view =>
      rw [view]
      simp [SendView.taken, Session.sendView, ready, queuedBytes]
  rw [none, List.append_nil]
  exact same

/-- The part of a session's stream that was delivered elsewhere is the pattern. -/
theorem delivered_pattern (sound : Sound s) {delivered rest : List UInt8}
    (split : s.acceptedBySocket = delivered ++ rest) :
    delivered = pattern delivered.length ∧ delivered.length ≤ s.configuration.size.value := by
  obtain ⟨n, bound, all⟩ := Session.acceptedBySocket_pattern sound
  rw [split] at all
  have length := congrArg List.length all
  simp only [List.length_append, pattern_length] at length
  refine ⟨eq_pattern rfl fun i hi => ?_, by omega⟩
  have at_i := congrArg (fun bytes => bytes[i]?) all
  rw [List.getElem?_append_left hi, pattern_getElem? (by omega)] at at_i
  exact at_i

/-- What was delivered is what was counted and what is held. -/
theorem Delivery.length {delivered : List UInt8} {counted : Nat} (single : s.receives.length ≤ 1)
    (h : Delivery s.configuration delivered counted s.receiveView) :
    delivered.length = counted + s.heldBytes := by
  have idle : (∀ call n, s.receives ≠ [⟨call, some (.ok n)⟩]) → s.heldBytes = 0 →
      delivered.length = counted + s.heldBytes := by
    intro free none
    rw [none]
    exact h.idle free
  match hr : s.receives, single with
  | [], _ => exact idle (by simp [hr]) (by simp [Session.heldBytes, hr])
  | [⟨call, r⟩], _ =>
    match r with
    | none => exact idle (by simp [hr]) (by simp [Session.heldBytes, hr])
    | some (.error f) => exact idle (by simp [hr]) (by simp [Session.heldBytes, hr])
    | some (.ok n) =>
      rw [(h.held call n hr).1]
      simp [Session.heldBytes, hr]

end NetTester

import NetTester.SessionStep

namespace NetTester

namespace Session

/-- An event that the session can take at some instant. -/
def Enabled (s : Session) (e : Event) : Prop := ∃ t s', s.step (t, e) = some s'

variable {s : Session} {e : Event}

theorem enabled_of_dispatch {t : Nat} (order : s.now ≤ t)
    (alive : s.assertionFailed = false) (h : ({ s with now := t }.dispatch e).isSome = true) :
    s.Enabled e := by
  obtain ⟨s', hs⟩ := Option.isSome_iff_exists.mp h
  exact ⟨t, s', by rw [step, if_pos ⟨order, alive⟩, hs]⟩

theorem enabled_delivery (alive : s.assertionFailed = false) {call : ReceiveCall}
    (pending : s.receives = [⟨call, none⟩]) {data : List UInt8} (nonempty : data ≠ [])
    (fits : data.length ≤ call.bufferSize) : s.Enabled (.complete (.received 0 (.ok data))) := by
  apply enabled_of_dispatch (Nat.le_refl s.now) alive
  simp [dispatch, complete, completeReceive, pending, nonempty, Operation.complete, fits]

theorem enabled_eof (alive : s.assertionFailed = false) {call : ReceiveCall}
    (pending : s.receives = [⟨call, none⟩]) :
    s.Enabled (.complete (.received 0 (.error .eof))) := by
  apply enabled_of_dispatch (Nat.le_refl s.now) alive
  simp [dispatch, complete, completeReceive, pending, Operation.complete, ErrorCode.isSystem]

theorem enabled_sent (alive : s.assertionFailed = false) {call : SendCall} {n : Nat}
    (pending : s.sends = [⟨call, none⟩]) (fits : n ≤ call.size) :
    s.Enabled (.complete (.sent 0 (.ok n))) := by
  apply enabled_of_dispatch (Nat.le_refl s.now) alive
  simp [dispatch, complete, completeSend, pending, Operation.complete, fits]

theorem opens_eq_nil (alive : s.assertionFailed = false) (single : s.opens.length ≤ 1)
    (opened : ¬s.Enabled (.complete (.opened 0 none)))
    (connect : ¬s.Enabled (.invoke (.onConnect 0))) : s.opens = [] := by
  match ho : s.opens, single with
  | [], _ => rfl
  | [⟨(), none⟩], _ =>
    refine absurd (enabled_of_dispatch (Nat.le_refl _) alive ?_) opened
    simp only [dispatch, complete, ho]
    rfl
  | [⟨(), some r⟩], _ =>
    refine absurd (enabled_of_dispatch (Nat.le_refl _) alive ?_) connect
    simp only [dispatch, invoke, ho]
    rfl

/-- Once no handler can run, a receive is still pending if there is one. -/
theorem receives_pending (alive : s.assertionFailed = false)
    (run : ¬s.Enabled (.invoke (.onReceive 0))) {o : Operation ReceiveCall (Except ErrorCode Nat)}
    (receives : s.receives = [o]) : o.result = none := by
  obtain ⟨call, r⟩ := o
  cases r with
  | none => rfl
  | some r =>
    refine absurd (enabled_of_dispatch (Nat.le_refl _) alive ?_) run
    simp only [dispatch, invoke, receives]
    rfl

theorem enabled_onSend (alive : s.assertionFailed = false) {call : SendCall}
    {r : Except ErrorCode Nat} (ready : s.sends = [⟨call, some r⟩]) :
    s.Enabled (.invoke (.onSend 0)) := by
  apply enabled_of_dispatch (Nat.le_refl _) alive
  simp only [dispatch, invoke, ready]
  rfl

/-- A wait of a throttle can expire at its instant. -/
theorem expire_due {throttle : BandwidthThrottle} {x now : Nat}
    (waits : throttle.waits = [⟨x, none⟩]) (due : x ≤ now) :
    (throttle.expire now 0).isSome = true := by
  simp [BandwidthThrottle.expire, waits, Operation.complete, due]

theorem enabled_sendSlice (alive : s.assertionFailed = false) {x : Nat}
    (waits : s.sendThrottle.waits = [⟨x, none⟩]) : s.Enabled (.complete (.sendSlice 0)) := by
  apply enabled_of_dispatch (Nat.le_max_left s.now x) alive
  have expires := expire_due waits (Nat.le_max_right s.now x)
  simpa [dispatch, complete] using expires

theorem enabled_sendThrottle (alive : s.assertionFailed = false) {x : Nat} {r : Option ErrorCode}
    (waits : s.sendThrottle.waits = [⟨x, some r⟩]) : s.Enabled (.invoke (.sendThrottle 0)) := by
  apply enabled_of_dispatch (Nat.le_refl _) alive
  simp only [dispatch, invoke, waits]
  rfl

theorem sends_pending (alive : s.assertionFailed = false)
    (run : ¬s.Enabled (.invoke (.onSend 0))) {o : Operation SendCall (Except ErrorCode Nat)}
    (sends : s.sends = [o]) : o.result = none := by
  obtain ⟨call, r⟩ := o
  cases r with
  | none => rfl
  | some r => exact absurd (enabled_onSend alive sends) run

theorem receiveWaits_eq_nil (alive : s.assertionFailed = false)
    (single : s.receiveThrottle.waits.length ≤ 1)
    (expire : ¬s.Enabled (.complete (.receiveSlice 0)))
    (fire : ¬s.Enabled (.invoke (.receiveThrottle 0))) : s.receiveThrottle.waits = [] := by
  match hw : s.receiveThrottle.waits, single with
  | [], _ => rfl
  | [⟨x, none⟩], _ =>
    refine absurd (enabled_of_dispatch (Nat.le_max_left s.now x) alive ?_) expire
    have expires := expire_due hw (Nat.le_max_right s.now x)
    simpa [dispatch, complete] using expires
  | [⟨x, some r⟩], _ =>
    refine absurd (enabled_of_dispatch (Nat.le_refl _) alive ?_) fire
    simp only [dispatch, invoke, hw]
    rfl

theorem sendWaits_eq_nil (alive : s.assertionFailed = false)
    (single : s.sendThrottle.waits.length ≤ 1)
    (expire : ¬s.Enabled (.complete (.sendSlice 0)))
    (fire : ¬s.Enabled (.invoke (.sendThrottle 0))) : s.sendThrottle.waits = [] := by
  match hw : s.sendThrottle.waits, single with
  | [], _ => rfl
  | [⟨x, none⟩], _ => exact absurd (enabled_sendSlice alive hw) expire
  | [⟨x, some r⟩], _ => exact absurd (enabled_sendThrottle alive hw) fire

end Session

end NetTester

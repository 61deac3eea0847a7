import NetTester.Sound

namespace NetTester

/-- The account of the bytes delivered to a session: those its handlers have counted, and those of a
completed receive, which lie in the buffer until its handler runs. -/
structure Delivery (c : SessionConfiguration) (delivered : List UInt8) (counted : Nat)
    (v : ReceiveView) : Prop where
  counter : v.received.value = counted % 2 ^ 64
  held : ∀ call n, v.receives = [⟨call, some (.ok n)⟩] → delivered.length = counted + n ∧
    (∀ i < n, delivered[counted + i]? = some (v.buffer i)) ∧ (c.protocol = .tcp → n ≠ 0)
  idle : (∀ call n, v.receives ≠ [⟨call, some (.ok n)⟩]) → delivered.length = counted

variable {c : SessionConfiguration} {delivered : List UInt8} {counted : Nat} {v : ReceiveView}

theorem pattern_getElem? {n i : Nat} (h : i < n) : (pattern n)[i]? = some (UInt8.ofNat i) := by
  simp [pattern, h]

theorem eq_pattern {bytes : List UInt8} {n : Nat} (length : bytes.length = n)
    (content : ∀ i < n, bytes[i]? = some (UInt8.ofNat i)) : bytes = pattern n := by
  refine List.ext_getElem? fun i => ?_
  rcases Nat.lt_or_ge i n with lt | ge
  · rw [content i lt, pattern_getElem? lt]
  · rw [List.getElem?_eq_none (length ▸ ge), List.getElem?_eq_none (by simpa using ge)]

theorem mismatchesFrom_eq_zero {buffer : Nat → UInt8} {n i : Nat} {expected : UInt8} :
    mismatchesFrom buffer n i expected = 0 ↔
      ∀ j < n, buffer (i + j) = expected + UInt8.ofNat j := by
  induction n generalizing i expected with
  | zero => simp [mismatchesFrom]
  | succ n ih =>
    have zero : expected + UInt8.ofNat 0 = expected := by simp
    have shift : ∀ j, expected + 1 + UInt8.ofNat j = expected + UInt8.ofNat (j + 1) := by
      intro j
      apply UInt8.toNat_inj.mp
      simp only [UInt8.toNat_add, UInt8.toNat_ofNat', UInt8.toNat_one]
      omega
    rw [mismatchesFrom, Nat.add_eq_zero_iff, ih]
    constructor
    · rintro ⟨rest, first⟩ j hj
      cases j with
      | zero => rw [zero]; simpa using first
      | succ j =>
        rw [← shift, ← rest j (by omega)]
        congr 1
        omega
    · intro all
      refine ⟨fun j hj => ?_, ?_⟩
      · rw [shift, ← all (j + 1) (by omega)]
        congr 1
        omega
      · have first := all 0 (by omega)
        rw [zero] at first
        simpa using first

/-- The byte that verification expects at an index does not notice that the counter wraps. -/
theorem expected_byte {received counted : Nat} (counter : received = counted % 2 ^ 64) (i : Nat) :
    UInt8.ofNat received + UInt8.ofNat i = UInt8.ofNat (counted + i) := by
  apply UInt8.toNat_inj.mp
  simp only [UInt8.toNat_add, UInt8.toNat_ofNat']
  omega

/-- Verification of every byte is silent exactly on the pattern. -/
theorem mismatches_all_eq_zero (counter : v.received.value = counted % 2 ^ 64) {n : Nat} :
    v.mismatches .all n = 0 ↔ ∀ i < n, v.buffer i = UInt8.ofNat (counted + i) := by
  simp only [ReceiveView.mismatches, mismatchesFrom_eq_zero, Nat.zero_add, expected_byte counter]

/-- No kind of verification complains about the pattern. -/
theorem mismatches_eq_zero (verify : Verify) (counter : v.received.value = counted % 2 ^ 64)
    {n : Nat} (nonempty : verify = .first → n ≠ 0)
    (content : ∀ i < n, v.buffer i = UInt8.ofNat (counted + i)) : v.mismatches verify n = 0 := by
  cases verify with
  | none => rfl
  | first =>
    have first := content 0 (Nat.pos_of_ne_zero (nonempty rfl))
    rw [← expected_byte counter] at first
    simp [ReceiveView.mismatches, first]
  | all => exact (mismatches_all_eq_zero counter).mpr content

/-- A view whose receive has not succeeded yet holds no bytes. -/
theorem Delivery.of_idle (counter : v.received.value = counted % 2 ^ 64)
    (free : ∀ call n, v.receives ≠ [⟨call, some (.ok n)⟩]) (length : delivered.length = counted) :
    Delivery c delivered counted v :=
  ⟨counter, fun call n held => absurd held (free call n), fun _ => length⟩

theorem ReceiveView.ask_free (receives : v.receives = []) (slice : Nat) :
    ∀ call n, (v.ask slice).receives ≠ [⟨call, some (.ok n)⟩] := by
  intro call n
  unfold ReceiveView.ask
  split
  next => simp [receives]
  next => simp [receives, Operation.initiate]

theorem ReceiveView.finish_free (receives : v.receives = []) (protocol : Protocol) :
    ∀ call n, (v.finish protocol).receives ≠ [⟨call, some (.ok n)⟩] := by
  intro call n
  cases protocol with
  | tcp => simp [ReceiveView.finish, receives, Operation.initiate]
  | udp => simp [ReceiveView.finish, receives]

theorem ReceiveView.ask_received (slice : Nat) : (v.ask slice).received = v.received := by
  unfold ReceiveView.ask
  split <;> rfl

theorem ReceiveView.finish_received (protocol : Protocol) :
    (v.finish protocol).received = v.received := by
  cases protocol <;> rfl

/-- What one event does to the delivered bytes. Those that the probe for the end of the stream finds
are not counted. -/
inductive DeliveryMove (s : Session) (e : Event) (s' : Session) (delivered : List UInt8)
    (counted : Nat) : Prop
  | fill (i : Nat) (data : List UInt8) (event : e = .complete (.received i (.ok data)))
      (call : ReceiveCall) (pending : s.receives = [⟨call, none⟩])
      (filled : s'.receives = [⟨call, some (.ok data.length)⟩])
      (after : Delivery s.configuration (delivered ++ data) counted s'.receiveView)
  | count (slice size n : Nat) (ready : s.receives = [⟨⟨.onReceive slice, size⟩, some (.ok n)⟩])
      (other : ∀ i data, e ≠ .complete (.received i (.ok data)))
      (report : s'.report = (Report.abort (.tester .dataMismatch))^[
        s.receiveView.mismatches s.configuration.verify n] s.report)
      (free : ∀ call n, s'.receives ≠ [⟨call, some (.ok n)⟩])
      (after : Delivery s.configuration delivered (counted + n) s'.receiveView)
  | still (other : ∀ i data, e ≠ .complete (.received i (.ok data)))
      (same : ∀ call n, s'.receives = [⟨call, some (.ok n)⟩] → s.receives = s'.receives)
      (after : Delivery s.configuration delivered counted s'.receiveView)
  | surplus (size n : Nat) (ready : s.receives = [⟨⟨.onEof, size⟩, some (.ok n)⟩])
      (failed : s'.failure ≠ none) (other : ∀ i data, e ≠ .complete (.received i (.ok data)))

/-- Verification is silent in a step that leaves no failure. -/
theorem silent_of_report {s s' : Session} {f : ErrorCode} {n : Nat}
    (report : s'.report = (Report.abort f)^[n] s.report) (clear : s'.failure = none) : n = 0 := by
  rw [Report.abort_iterate] at report
  by_contra some
  rw [if_neg some] at report
  have failed : s'.failure = _ := congrArg Report.failure report
  simp [failed] at clear

theorem Delivery.fill (h : Delivery c delivered counted v) {call : ReceiveCall}
    (pending : v.receives = [⟨call, none⟩]) {data : List UInt8}
    (stream : c.protocol = .tcp → data ≠ []) :
    Delivery c (delivered ++ data) counted { v with
      buffer := writeBuffer v.buffer data, receives := [⟨call, some (.ok data.length)⟩] } := by
  have length := h.idle (by simp [pending])
  refine ⟨h.counter, fun call' n held => ?_, fun free => absurd rfl (free call data.length)⟩
  simp only [List.cons.injEq, Operation.mk.injEq, Option.some.injEq, Except.ok.injEq,
    and_true] at held
  obtain ⟨_, rfl⟩ := held
  refine ⟨by simp [length], fun i hi => ?_, fun tcp => by simpa using stream tcp⟩
  rw [List.getElem?_append_right (by omega), length, Nat.add_sub_cancel_left]
  simp [writeBuffer, hi]

theorem Delivery.step {s s' : Session} {t : Nat} {e : Event}
    (h : Delivery s.configuration delivered counted s.receiveView) (sound : Sound s)
    (hs : s.step (t, e) = some s') : DeliveryMove s e s' delivered counted := by
  by_cases filling : ∃ i data, e = .complete (.received i (.ok data))
  · obtain ⟨i, data, rfl⟩ := filling
    cases Session.step_cases sound.tidy hs with
    | received data call pending fits stream =>
      exact .fill 0 data rfl call pending rfl (h.fill pending stream)
  have other : ∀ i data, e ≠ .complete (.received i (.ok data)) := fun i data event =>
    filling ⟨i, data, event⟩
  -- Without bytes held before and after, only the counter has to stay.
  have idle : ∀ w : ReceiveView, s'.receiveView = w → w.received = s.statistics.receivedBytesCount →
      (∀ call n, s.receives ≠ [⟨call, some (.ok n)⟩]) →
      (∀ call n, w.receives ≠ [⟨call, some (.ok n)⟩]) →
      DeliveryMove s e s' delivered counted := by
    rintro w view received before after
    refine .still other (fun call n held => ?_) (.of_idle ?_ ?_ (h.idle before))
    · exact absurd ((congrArg ReceiveView.receives view).symm.trans held) (after call n)
    · rw [view, received]
      exact h.counter
    · rw [view]
      exact after
  cases Session.step_receiveMove sound.tidy hs with
  | still view _ =>
    refine .still other (fun call n _ => (congrArg ReceiveView.receives view).symm) ?_
    rw [view]
    exact h
  | start unstarted used view =>
    have receives : s.receives = [] := (sound.receive.idle unstarted).receives
    exact idle _ view (ReceiveView.ask_received 0) (by simp [receives])
      (ReceiveView.ask_free receives 0)
  | startUnused unstarted unused view =>
    have receives : s.receives = [] := (sound.receive.idle unstarted).receives
    exact idle _ view (ReceiveView.finish_received _) (by simp [receives])
      (ReceiveView.finish_free receives _)
  | expire x waits due view =>
    have receives : s.receives = [] := (sound.receive.wait waits).receives
    exact idle _ view rfl (by simp [receives]) (by simp [Session.receiveView, receives])
  | slice x waits view =>
    have receives : s.receives = [] := (sound.receive.wait waits).receives
    exact idle _ view (ReceiveView.ask_received _) (by simp [receives])
      (ReceiveView.ask_free receives _)
  | cancelled x f waits =>
    have result := (sound.receive.wait waits).result
    simp at result
  | fill i data call event => exact absurd event (other i data)
  | fail i f call event pending failed view =>
    exact idle _ view rfl (by simp [pending]) (by simp)
  | resume slice size n ready short view report =>
    have held := h.held _ n ready
    have free := ReceiveView.ask_free
      (v := { s.receiveView with
        received := s.statistics.receivedBytesCount.add n, receives := [] }) rfl (sub64 slice n)
    refine .count slice size n ready other report ?_ (.of_idle ?_ ?_ held.1)
    · exact fun call k held =>
        free call k ((congrArg ReceiveView.receives view).symm.trans held)
    · have counter : s.statistics.receivedBytesCount.value = counted % 2 ^ 64 := h.counter
      rw [view, ReceiveView.ask_received]
      simp only [Size.add_value, counter]
      omega
    · rw [view]
      exact free
  | finish slice size n ready full view report =>
    have held := h.held _ n ready
    have free := ReceiveView.finish_free
      (v := { s.receiveView with
        received := s.statistics.receivedBytesCount.add n, receives := [] }) rfl
      s.configuration.protocol
    refine .count slice size n ready other report ?_ (.of_idle ?_ ?_ held.1)
    · exact fun call k held =>
        free call k ((congrArg ReceiveView.receives view).symm.trans held)
    · have counter : s.statistics.receivedBytesCount.value = counted % 2 ^ 64 := h.counter
      rw [view, ReceiveView.finish_received]
      simp only [Size.add_value, counter]
      omega
    · rw [view]
      exact free
  | aborted call ready =>
    obtain ⟨handler, size⟩ := call
    cases handler with
    | onReceive slice =>
      have live := (sound.receive.slice ready).live
      exact absurd (live _ rfl) (by decide)
    | onEof =>
      have live := (sound.receive.probe ready).live
      exact absurd (live _ rfl) (by decide)
  | stop call r f ready bad view report =>
    have failed : s'.failure = some f := congrArg Report.failure report
    obtain ⟨handler, size⟩ := call
    cases handler with
    | onReceive slice =>
      obtain ⟨g, rfl⟩ := bad
      exact idle _ view rfl (by simp [ready]) (by simp)
    | onEof =>
      cases r with
      | error g => exact idle _ view rfl (by simp [ready]) (by simp)
      | ok n => exact .surplus size n ready (by simp [failed]) other
  | eof size ready view => exact idle _ view rfl (by simp [ready]) (by simp)

end NetTester

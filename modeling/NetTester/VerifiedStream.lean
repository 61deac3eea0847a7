import NetTester.PeerStream

namespace NetTester

/-- The session and its stream after some events: what was delivered is a prefix, the end shows only
once nothing is left, and without a failure the counted bytes were found to be the pattern. -/
structure Reads (c : SessionConfiguration) (stream : List UInt8) (events : List (Nat × Event))
    (r : Reading) : Prop where
  sound : Sound r.session
  configuration : r.session.configuration = c
  split : stream = (chunks events).flatten ++ r.unread
  ended : AtEnd r.session → r.unread = []
  verified : r.session.failure = none → ∃ counted,
    Delivery c (chunks events).flatten counted r.session.receiveView ∧
      (∀ i < counted, (chunks events).flatten[i]? = some (UInt8.ofNat i)) ∧
      (¬Crosses c.size.value (chunks events) → counted ≤ c.size.value ∧
        ∀ slice size n, r.session.receives = [⟨⟨.onReceive slice, size⟩, some (.ok n)⟩] →
          (chunks events).flatten.length ≤ c.size.value)

namespace Reads

variable {c : SessionConfiguration} {stream : List UInt8} {events : List (Nat × Event)}
  {r r' : Reading}

theorem create (accepted : Accepted c) (draws : Nat → Nat) (now : Nat) :
    Reads c stream [] ⟨Session.create c draws now, stream⟩ where
  sound := .create accepted draws now
  configuration := rfl
  split := rfl
  ended := by
    rintro (⟨call, held⟩ | complete)
    · simp [Session.create] at held
    · simp [Session.create] at complete
  verified := by
    refine fun _ => ⟨0, .of_idle rfl (by simp [Session.create, Session.receiveView]) rfl,
      by simp, fun _ => ⟨Nat.zero_le _, by simp [Session.create]⟩⟩

theorem verified_step {t : Nat} {e : Event} (h : Reads c stream events r) (all : c.verify = .all)
    (hs : r.session.step (t, e) = some r'.session) (clear : r'.session.failure = none) :
    ∃ counted, Delivery c (chunks (events ++ [(t, e)])).flatten counted r'.session.receiveView ∧
      (∀ i < counted, (chunks (events ++ [(t, e)])).flatten[i]? = some (UInt8.ofNat i)) ∧
      (¬Crosses c.size.value (chunks (events ++ [(t, e)])) → counted ≤ c.size.value ∧
        ∀ slice size n, r'.session.receives = [⟨⟨.onReceive slice, size⟩, some (.ok n)⟩] →
          (chunks (events ++ [(t, e)])).flatten.length ≤ c.size.value) := by
  obtain rfl := h.configuration
  have before : r.session.failure = none := of_not_not fun failed =>
    (Session.step_frame h.sound.tidy hs).reports.failure failed clear
  obtain ⟨counted, delivery, content, within⟩ := h.verified before
  have unchanged : (∀ i data, e ≠ .complete (.received i (.ok data))) →
      chunks (events ++ [(t, e)]) = chunks events := by
    intro other
    have none : chunk? (t, e) = none := by
      unfold chunk?
      split
      next i data event => exact absurd (congrArg Prod.snd event) (other _ _)
      next => rfl
    simp [chunks_concat, none]
  cases delivery.step h.sound hs with
  | fill i data event call pending filled after =>
    have more : chunks (events ++ [(t, e)]) = chunks events ++ [data] := by
      simp [chunks_concat, event, chunk?]
    have length := delivery.idle (by simp [Session.receiveView, pending])
    rw [more, List.flatten_append, List.flatten_singleton]
    refine ⟨counted, after, fun i hi => ?_, fun inside => ?_⟩
    · rw [List.getElem?_append_left (by omega)]
      exact content i hi
    · have bound := (within fun crosses => inside (crosses.concat data)).1
      refine ⟨bound, fun slice size n held => ?_⟩
      -- The chunk starts before the size, so it ends within it.
      rw [filled] at held
      simp only [List.cons.injEq, Operation.mk.injEq, and_true] at held
      obtain ⟨rfl, _⟩ := held
      have short := (h.sound.receive.slice pending).short
      have counter : r.session.receiveView.received.value = counted % 2 ^ 64 := delivery.counter
      have size := r.session.configuration.size.bounded
      rw [List.length_append]
      by_contra beyond
      exact inside (.last (by omega) (by omega))
  | count slice size n ready other report free after =>
    rw [unchanged other]
    have silent := silent_of_report report clear
    obtain ⟨length, held, _⟩ := delivery.held _ n ready
    rw [all, mismatches_all_eq_zero delivery.counter] at silent
    refine ⟨counted + n, after, fun i hi => ?_, fun inside => ?_⟩
    · rcases Nat.lt_or_ge i counted with old | new
      · exact content i old
      · obtain ⟨k, rfl⟩ := Nat.exists_eq_add_of_le new
        rw [held k (by omega), silent k (by omega)]
    · have bound := (within inside).2 slice size n ready
      exact ⟨by omega, fun slice size n held => absurd held (free _ n)⟩
  | still other same after =>
    rw [unchanged other]
    refine ⟨counted, after, content, fun inside => ⟨(within inside).1, ?_⟩⟩
    intro slice size n held
    exact (within inside).2 slice size n ((same _ n held).trans held)
  | surplus size n ready failed => exact absurd clear failed

theorem step {event : Nat × Event} (h : Reads c stream events r) (tcp : c.protocol = .tcp)
    (all : c.verify = .all) (hs : r.step event = some r') :
    Reads c stream (events ++ [event]) r' := by
  obtain ⟨t, e⟩ := event
  obtain ⟨hs, unread, eof⟩ := Reading.step_eq_some hs
  have frame := Session.step_frame h.sound.tidy hs
  exact {
    sound := h.sound.step hs
    configuration := frame.configuration.trans h.configuration
    split := by
      rw [h.split, unread, chunks_concat, List.flatten_append, List.append_assoc]
    ended := by
      intro ended
      have none : r.unread = [] := by
        by_cases event : ∃ i, e = .complete (.received i (.error .eof))
        · obtain ⟨i, event⟩ := event
          exact eof i event
        · refine h.ended (ended.of_step h.sound (h.configuration ▸ tcp) hs ?_)
          exact fun i eq => event ⟨i, eq⟩
      exact (List.append_eq_nil_iff.mp (unread.symm.trans none)).2
    verified := h.verified_step all hs }

theorem of_run (accepted : Accepted c) (tcp : c.protocol = .tcp) (all : c.verify = .all)
    {draws : Nat → Nat} {now : Nat}
    (reach : Machine.run Reading.step ⟨Session.create c draws now, stream⟩ events = some r) :
    Reads c stream events r :=
  Machine.run_induction (Reads c stream) (create accepted draws now)
    (fun _ _ _ _ _ h hs => h.step tcp all hs) reach

end Reads

/-- A verified stream session that completes without a failure has read exactly the pattern if and
only if no receive took bytes from both sides of the end that its size sets. -/
theorem stream_complete_iff {c : SessionConfiguration} (accepted : Accepted c)
    (tcp : c.protocol = .tcp) (used : c.direction ≠ .tx) (all : c.verify = .all)
    {draws : Nat → Nat} {now : Nat} {stream : List UInt8} {events : List (Nat × Event)}
    {r : Reading}
    (reach : Machine.run Reading.step ⟨Session.create c draws now, stream⟩ events = some r)
    (complete : r.session.isReceiveComplete = true) (clear : r.session.failure = none) :
    stream = pattern c.size.value ↔ ¬Crosses c.size.value (chunks events) := by
  have reads := Reads.of_run accepted tcp all reach
  have split := reads.split
  constructor
  · intro exact
    apply not_crosses
    have length := congrArg List.length (exact.symm.trans split)
    simp only [pattern_length, List.length_append] at length
    omega
  · intro inside
    obtain ⟨counted, delivery, content, within⟩ := reads.verified clear
    have receives : r.session.receives = [] := (reads.sound.receive.single.2.2 complete).1
    have length := delivery.idle (by simp [Session.receiveView, receives])
    have full : c.size.value ≤ r.session.receiveView.received.value := by
      have incomplete : r.session.receiveView.isComplete = false → False := fun flag => by
        have flag : r.session.isReceiveComplete = false := flag
        simp [flag] at complete
      rw [← reads.configuration]
      cases reads.sound.receive with
      | complete ended =>
        rcases ended with ⟨unused, _⟩ | ⟨_, full, _⟩
        · exact absurd (reads.configuration ▸ unused) used
        · exact full
      | unstarted date received receives waits flag => exact (incomplete flag).elim
      | waiting start total r' budget used short receives waits result flag =>
        exact (incomplete flag).elim
      | receiving start total slice r' budget used short positive bounded receives waits fits live
          flag => exact (incomplete flag).elim
      | probing r' ended stream receives waits live flag => exact (incomplete flag).elim
      | stopped failure => exact absurd clear failure
    have bound := (within inside).1
    have size := c.size.bounded
    have counter := delivery.counter
    have whole : counted = c.size.value := by omega
    rw [split, reads.ended (.inr complete), List.append_nil]
    exact eq_pattern (length.trans whole) (whole ▸ content)

/-- A session that receives data in one chunk and then the end of the stream. -/
def receiveChunk (data : List UInt8) : List (Nat × Event) :=
  [(0, .complete (.opened 0 none)), (0, .invoke (.onConnect 0)), (0, .complete (.receiveSlice 0)),
    (0, .invoke (.receiveThrottle 0)), (0, .complete (.received 0 (.ok data))),
    (0, .invoke (.onReceive 0)), (0, .complete (.received 0 (.error .eof))),
    (0, .invoke (.onReceive 0))]

theorem stream_complete_one : ∃ r, Machine.run Reading.step
    ⟨Session.create { defaultConfiguration "127.0.0.1:1234" ⟨1, .iec, by decide⟩ with
      verify := .all } (fun _ => 0) 0, [0]⟩ (receiveChunk [0]) = some r ∧
    ¬Crosses 1 (chunks (receiveChunk [0])) := by
  refine Machine.exists_run (fun r => (r.session.isReceiveComplete, r.session.failure))
    (b := (true, none)) (by decide +kernel) ?_
  intro r reach observed
  simp only [Prod.mk.injEq] at observed
  exact (stream_complete_iff (accepted_iff.mpr (by decide)) rfl (by decide) rfl reach observed.1
    observed.2).mp rfl

/-- A surplus byte in the chunk that completes the size is neither verified against the end of the
stream nor found by the probe for it. -/
theorem surplus_unnoticed : ¬∀ (c : SessionConfiguration) (_ : Accepted c) (_ : c.protocol = .tcp)
    (_ : c.direction ≠ .tx) (_ : c.verify = .all) (draws : Nat → Nat) (now : Nat)
    (stream : List UInt8) (events : List (Nat × Event)) (r : Reading)
    (_ : Machine.run Reading.step ⟨Session.create c draws now, stream⟩ events = some r)
    (_ : r.session.isReceiveComplete = true) (_ : r.session.failure = none),
    stream.length = c.size.value ∧ ∀ p < stream.length, stream[p]? = some (UInt8.ofNat p) := by
  intro claim
  obtain ⟨r, reach, complete, clear⟩ : ∃ r, Machine.run Reading.step
      ⟨Session.create { defaultConfiguration "127.0.0.1:1234" ⟨1, .iec, by decide⟩ with
        verify := .all } (fun _ => 0) 0, [0, 1]⟩ (receiveChunk [0, 1]) = some r ∧
      r.session.isReceiveComplete = true ∧ r.session.failure = none := by
    refine Machine.exists_run (fun r => (r.session.isReceiveComplete, r.session.failure))
      (b := (true, none)) (by decide +kernel) ?_
    intro r reach observed
    simpa only [Prod.mk.injEq] using observed
  have exact := claim _ (accepted_iff.mpr (by decide)) rfl (by decide) rfl _ _ _ _ r reach complete
    clear
  exact absurd exact.1 (by decide)

end NetTester

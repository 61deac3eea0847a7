import NetTester.Delivery

namespace NetTester

/-- A session that reads a stream, with the part of it that was not delivered yet. -/
structure Reading where
  session : Session
  unread : List UInt8

/-- Receives take the stream in order, and find its end only once it is used up. -/
def Reading.step (r : Reading) (event : Nat × Event) : Option Reading :=
  match event.2 with
  | .complete (.received _ (.ok data)) =>
    if data <+: r.unread then
      (r.session.step event).map fun s => ⟨s, r.unread.drop data.length⟩
    else
      none
  | .complete (.received _ (.error .eof)) =>
    if r.unread = [] then (r.session.step event).map fun s => ⟨s, r.unread⟩ else none
  | _ => (r.session.step event).map fun s => ⟨s, r.unread⟩

def chunk? : Nat × Event → Option (List UInt8)
  | (_, .complete (.received _ (.ok data))) => some data
  | _ => none

/-- The chunks in which the events deliver data. -/
def chunks (events : List (Nat × Event)) : List (List UInt8) := events.filterMap chunk?

/-- Some chunk has bytes on both sides of a position. -/
def Crosses (position : Nat) (chunks : List (List UInt8)) : Prop :=
  ∃ before chunk after, chunks = before ++ chunk :: after ∧ before.flatten.length < position ∧
    position < before.flatten.length + chunk.length

/-- The receive chain has seen the end of its stream. -/
def AtEnd (s : Session) : Prop :=
  (∃ call, s.receives = [⟨call, some (.error .eof)⟩]) ∨ s.isReceiveComplete = true

theorem Crosses.concat {position : Nat} {chunks : List (List UInt8)} (h : Crosses position chunks)
    (chunk : List UInt8) : Crosses position (chunks ++ [chunk]) := by
  obtain ⟨before, middle, after, rfl, low, high⟩ := h
  exact ⟨before, middle, after ++ [chunk], by simp, low, high⟩

theorem Crosses.last {position : Nat} {chunks : List (List UInt8)} {chunk : List UInt8}
    (low : chunks.flatten.length < position)
    (high : position < chunks.flatten.length + chunk.length) :
    Crosses position (chunks ++ [chunk]) :=
  ⟨chunks, chunk, [], rfl, low, high⟩

/-- Chunks that end within the position do not cross it. -/
theorem not_crosses {position : Nat} {chunks : List (List UInt8)}
    (h : chunks.flatten.length ≤ position) : ¬Crosses position chunks := by
  rintro ⟨before, chunk, after, rfl, _, high⟩
  simp only [List.flatten_append, List.flatten_cons, List.length_append] at h
  omega

theorem chunks_concat (events : List (Nat × Event)) (event : Nat × Event) :
    chunks (events ++ [event]) = chunks events ++ (chunk? event).toList := by
  cases h : chunk? event <;> simp [chunks, h]

theorem Reading.step_eq_some {r r' : Reading} {t : Nat} {e : Event}
    (h : r.step (t, e) = some r') : r.session.step (t, e) = some r'.session ∧
      r.unread = ((chunk? (t, e)).toList).flatten ++ r'.unread ∧
      ∀ i, e = .complete (.received i (.error .eof)) → r.unread = [] := by
  unfold Reading.step at h
  split at h
  next i data event =>
    obtain rfl : e = .complete (.received i (.ok data)) := event
    split at h
    next taken =>
      obtain ⟨s, hs, rfl⟩ := Option.map_eq_some_iff.mp h
      obtain ⟨rest, unread⟩ := taken
      exact ⟨hs, by simp [chunk?, ← unread], by simp⟩
    next => simp at h
  next i event =>
    obtain rfl : e = .complete (.received i (.error .eof)) := event
    split at h
    next none =>
      obtain ⟨s, hs, rfl⟩ := Option.map_eq_some_iff.mp h
      exact ⟨hs, rfl, fun _ _ => none⟩
    next => simp at h
  next data eof =>
    obtain ⟨s, hs, rfl⟩ := Option.map_eq_some_iff.mp h
    have other : chunk? (t, e) = none := by
      unfold chunk?
      split
      next i data event =>
        cases event
        exact absurd rfl (data _ _)
      next => rfl
    exact ⟨hs, by simp [other], fun i event => absurd event (eof i)⟩

/-- A result that is queued for a receive came from its completion. -/
theorem received_origin {s s' : Session} {t : Nat} {e : Event} (sound : Sound s)
    (hs : s.step (t, e) = some s') {call : ReceiveCall} {r : Except ErrorCode Nat}
    (held : s'.receives = [⟨call, some r⟩])
    (other : ∀ i r, e ≠ .complete (.received i r)) : s.receives = s'.receives := by
  -- A view with no result to show was not reached.
  have fresh : ∀ w : ReceiveView, s'.receiveView = w → (∀ r, w.receives ≠ [⟨call, some r⟩]) →
      s.receives = s'.receives := fun w view free =>
    absurd ((congrArg ReceiveView.receives view).symm.trans held) (free r)
  have ask : ∀ (w : ReceiveView) slice, w.receives = [] → s'.receiveView = w.ask slice →
      s.receives = s'.receives := by
    intro w slice receives view
    refine fresh _ view fun r => ?_
    unfold ReceiveView.ask
    split <;> simp [receives, Operation.initiate]
  have finish : ∀ w : ReceiveView, w.receives = [] →
      s'.receiveView = w.finish s.configuration.protocol → s.receives = s'.receives := by
    intro w receives view
    refine fresh _ view fun r => ?_
    unfold ReceiveView.finish
    split <;> simp [receives, Operation.initiate]
  cases Session.step_receiveMove sound.tidy hs with
  | still view => exact (congrArg ReceiveView.receives view).symm
  | start unstarted used view =>
    have receives := (sound.receive.idle unstarted).receives
    exact ask { s.receiveView with
      startDate := some t, throttle := s.receiveThrottle.reset t } 0 receives view
  | startUnused unstarted unused view =>
    have receives := (sound.receive.idle unstarted).receives
    exact finish { s.receiveView with startDate := some t } receives view
  | expire x waits due view => exact (congrArg ReceiveView.receives view).symm
  | slice x waits view =>
    have receives := (sound.receive.wait waits).receives
    exact ask { s.receiveView with
      throttle := { s.receiveThrottle with waits := [] }.startSlice t } _ receives view
  | cancelled x f waits =>
    have result := (sound.receive.wait waits).result
    simp at result
  | fill i data call event => exact absurd event (other i _)
  | fail i f call event => exact absurd event (other i _)
  | resume slice size n ready short view =>
    exact ask { s.receiveView with
      received := s.statistics.receivedBytesCount.add n, receives := [] } _ rfl view
  | finish slice size n ready full view =>
    exact finish { s.receiveView with
      received := s.statistics.receivedBytesCount.add n, receives := [] } rfl view
  | aborted call ready => exact absurd (sound.receive_system ready) (by decide)
  | stop call r f ready bad view => exact fresh _ view (by simp)
  | eof size ready view => exact fresh _ view (by simp)

theorem receive_error_origin {s s' : Session} {t : Nat} {e : Event} (sound : Sound s)
    (hs : s.step (t, e) = some s') {call : ReceiveCall} {f : ErrorCode}
    (ended : s'.receives = [⟨call, some (.error f)⟩]) :
    s.receives = s'.receives ∨ ∃ i, e = .complete (.received i (.error f)) := by
  by_cases receiving : ∃ i r, e = .complete (.received i r)
  · obtain ⟨i, r, rfl⟩ := receiving
    cases Session.step_cases sound.tidy hs with
    | received => simp at ended
    | receiveFails g =>
      simp only [List.cons.injEq, Operation.mk.injEq, Option.some.injEq, Except.error.injEq,
        and_true] at ended
      exact .inr ⟨0, by rw [ended.2]⟩
  · exact .inl (received_origin sound hs ended fun i r event => receiving ⟨i, r, event⟩)

/-- A stream session completes its receive chain with the end of the stream. -/
theorem complete_origin {s s' : Session} {t : Nat} {e : Event} (sound : Sound s)
    (stream : s.configuration.protocol = .tcp) (hs : s.step (t, e) = some s')
    (complete : s'.isReceiveComplete = true) :
    s.isReceiveComplete = true ∨ ∃ size, s.receives = [⟨⟨.onEof, size⟩, some (.error .eof)⟩] := by
  have keeps : ∀ w : ReceiveView, s'.receiveView = w → w.isComplete = s.isReceiveComplete →
      s.isReceiveComplete = true := by
    intro w view same
    have flag : s'.isReceiveComplete = w.isComplete := congrArg ReceiveView.isComplete view
    exact same.symm.trans (flag.symm.trans complete)
  have ask : ∀ (w : ReceiveView) slice, (w.ask slice).isComplete = w.isComplete := by
    intro w slice
    unfold ReceiveView.ask
    split <;> rfl
  cases Session.step_receiveMove sound.tidy hs with
  | still view => exact .inl (keeps _ view rfl)
  | start unstarted used view => exact .inl (keeps _ view (ask _ 0))
  | startUnused unstarted unused view =>
    rw [stream] at view
    exact .inl (keeps _ view rfl)
  | expire x waits due view => exact .inl (keeps _ view rfl)
  | slice x waits view => exact .inl (keeps _ view (ask _ _))
  | cancelled x f waits =>
    have result := (sound.receive.wait waits).result
    simp at result
  | fill i data call event pending fits stream view => exact .inl (keeps _ view rfl)
  | fail i f call event pending failed view => exact .inl (keeps _ view rfl)
  | resume slice size n ready short view => exact .inl (keeps _ view (ask _ _))
  | finish slice size n ready full view =>
    rw [stream] at view
    exact .inl (keeps _ view rfl)
  | aborted call ready => exact absurd (sound.receive_system ready) (by decide)
  | stop call r f ready bad view => exact .inl (keeps _ view rfl)
  | eof size ready => exact .inr ⟨size, ready⟩

/-- Only the completion with that result brings a stream session to the end of its stream. -/
theorem AtEnd.of_step {s s' : Session} {t : Nat} {e : Event} (sound : Sound s)
    (stream : s.configuration.protocol = .tcp) (hs : s.step (t, e) = some s') (h : AtEnd s')
    (other : ∀ i, e ≠ .complete (.received i (.error .eof))) : AtEnd s := by
  rcases h with ⟨call, ended⟩ | complete
  · rcases receive_error_origin sound hs ended with same | ⟨i, event⟩
    · exact .inl ⟨call, same.trans ended⟩
    · exact absurd event (other i)
  · rcases complete_origin sound stream hs complete with complete | ⟨size, ready⟩
    · exact .inr complete
    · exact .inl ⟨_, ready⟩

end NetTester

import NetTester.HalfClose
import NetTester.StreamPair

namespace NetTester

/-- The side has nothing more to send. -/
def Ceased (s : Session) : Prop := s.configuration.direction = .rx ∨ s.isSendComplete = true

section

variable {s s' : Session} {t : Nat} {e : Event}

theorem Ceased.sends (h : Ceased s) (sound : Sound s) : s.sends = [] := by
  rcases h with unused | complete
  · cases sound.send with
    | unstarted date sent accepted sends => exact sends
    | unused direction date sent accepted sends => exact sends
    | waiting start r budget used => exact absurd unused used
    | sending start call r budget offer used => exact absurd unused used
    | complete start budget used => exact absurd unused used
    | stopped start remaining cause assertion budget used => exact absurd unused used
  · exact (sound.send.single.2.2 complete).1

theorem Ceased.push (h : Ceased s) (sound : Sound s) (e : Event) : s.push e = [] := by
  unfold Session.push
  split
  next => simp [h.sends sound]
  next => rfl

/-- A send chain that is complete takes no further step. -/
theorem Ceased.step (h : Ceased s) (sound : Sound s) (hs : s.step (t, e) = some s') :
    Ceased s' := by
  rcases h with unused | complete
  · exact .inl ((Session.step_frame sound.tidy hs).configuration ▸ unused)
  refine .inr ?_
  obtain ⟨sends, waits⟩ := sound.send.single.2.2 complete
  have sends : s.sends = [] := sends
  have waits : s.sendThrottle.waits = [] := waits
  have idle : s.statistics.startDate = none → s'.isSendComplete = true := by
    intro unstarted
    have incomplete := (sound.tidy.unstarted unstarted).2.2.2
    simp [incomplete] at complete
  cases Session.step_sendMove sound.tidy hs with
  | still view => exact (congrArg SendView.isComplete view).trans complete
  | start unstarted => exact idle unstarted
  | startUnused unstarted => exact idle unstarted
  | expire x pending => simp [waits] at pending
  | slice x pending => simp [waits] at pending
  | cancelled x f pending => simp [waits] at pending
  | fill i n call event pending => simp [sends] at pending
  | fail i f call event pending => simp [sends] at pending
  | resume call n ready => simp [sends] at ready
  | finish call n ready => simp [sends] at ready
  | aborted call ready => simp [sends] at ready
  | stop call f ready => simp [sends] at ready

/-- A side whose end of the stream can be seen has nothing more to send. -/
theorem Ceased.of_gone (sound : Sound s) (halfClose : HalfClose s)
    (tcp : s.configuration.protocol = .tcp)
    (policy : s.configuration.direction ≠ .rx → s.configuration.shutdownPolicy = .sendComplete)
    (gone : s.isShutdown = true ∨ s.isOpen = false) : Ceased s := by
  by_cases used : s.configuration.direction = .rx
  · exact .inl used
  refine .inr ?_
  rcases gone with shutdown | closed
  · rw [halfClose.sendComplete tcp (policy used), decide_eq_true_eq] at shutdown
    by_contra incomplete
    apply shutdown
    cases sound.send with
    | unused direction date sent accepted sends waits complete => exact absurd complete incomplete
    | complete start budget used full sends waits complete => exact absurd complete incomplete
    | _ => assumption
  · have done : s.isDone = true := by simpa [sound.ending.isOpen] using closed
    simp only [Session.isDone, Bool.and_eq_true] at done
    exact done.2

/-- A side that had something to send and has ceased has sent the whole pattern. -/
theorem Ceased.acceptedBySocket (h : Ceased s) (sound : Sound s)
    (used : s.configuration.direction ≠ .rx) :
    s.statistics.sentBytesCount.value = s.configuration.size.value ∧
      s.acceptedBySocket = pattern s.configuration.size.value := by
  have complete := h.resolve_left used
  have full : s.sendView.sent.value = s.configuration.size.value := by
    have running : s.sendView.isComplete = false → False := fun incomplete => by
      have incomplete : s.isSendComplete = false := incomplete
      simp [incomplete] at complete
    cases sound.send with
    | unstarted date sent accepted sends waits incomplete => exact (running incomplete).elim
    | unused direction => exact absurd direction used
    | waiting start r budget used short sends waits result incomplete =>
      exact (running incomplete).elim
    | sending start call r budget offer used sends waits fits live incomplete =>
      exact (running incomplete).elim
    | complete start budget used full => exact full
    | stopped start remaining cause assertion budget used short sends waits incomplete =>
      exact (running incomplete).elim
  have accepted : s.accepted = pattern s.statistics.sentBytesCount.value := sound.send.accepted
  have full : s.statistics.sentBytesCount.value = s.configuration.size.value := full
  refine ⟨full, ?_⟩
  rw [Session.acceptedBySocket, h.sends sound, accepted, full]
  exact List.append_nil _

theorem acceptedBySocket_unused (sound : Sound s) (unused : s.configuration.direction = .rx) :
    s.acceptedBySocket = [] := by
  have none : s.statistics.sentBytesCount.value = 0 := by
    cases sound.send with
    | unstarted date sent => exact sent
    | unused direction date sent => exact sent
    | waiting start r budget used => exact absurd unused used
    | sending start call r budget offer used => exact absurd unused used
    | complete start budget used => exact absurd unused used
    | stopped start remaining cause assertion budget used => exact absurd unused used
  have accepted : s.accepted = pattern s.statistics.sentBytesCount.value := sound.send.accepted
  rw [Session.acceptedBySocket, Ceased.sends (.inl unused) sound, accepted, none]
  rfl

end

/-- What the two configurations agree on. -/
structure Matched (c : Side → SessionConfiguration) : Prop where
  accepted : ∀ x, Accepted (c x)
  tcp : ∀ x, (c x).protocol = .tcp
  size : ∀ x, (c x.other).size.value = (c x).size.value
  policy : ∀ x, (c x).direction ≠ .rx → (c x).shutdownPolicy = .sendComplete
  roles : ∀ x, (c x).direction = .tx ↔ (c x.other).direction = .rx

theorem Matched.of_compatible {c : Side → SessionConfiguration} (accepted : ∀ x, Accepted (c x))
    (tcp : ∀ x, (c x).protocol = .tcp) (size : (c .left).size.value = (c .right).size.value)
    (compatible : Compatible (c .left) (c .right)) : Matched c := by
  refine ⟨accepted, tcp, ?_, ?_, ?_⟩
  · intro x
    cases x with
    | left => exact size.symm
    | right => exact size
  · intro x used
    cases compatible <;> cases x <;> simp_all
  · intro x
    cases compatible <;> cases x <;> simp_all [Side.other]

namespace StreamPair

/-- The account of the stream to a side: what its peer's socket accepted was delivered or is on its
way, and the side sees the end of the stream only when nothing is left. -/
structure Linked (p : StreamPair) (x : Side) : Prop where
  delivered : ∃ delivered counted,
    Delivery (p.session x).configuration delivered counted (p.session x).receiveView ∧
      (p.session x.other).acceptedBySocket = delivered ++ p.channel x
  ended : AtEnd (p.session x) → p.channel x = [] ∧ Ceased (p.session x.other)

/-- The invariant of the two sessions. -/
structure Works (c : Side → SessionConfiguration) (p : StreamPair) : Prop where
  configuration : ∀ x, (p.session x).configuration = c x
  sound : ∀ x, Sound (p.session x)
  halfClose : ∀ x, HalfClose (p.session x)
  undisturbed : ∀ x, Undisturbed (p.session x)
  clear : ∀ x, (p.session x).failure = none
  linked : ∀ x, Linked p x

namespace Works

variable {c : Side → SessionConfiguration} {flow : Flow} {p p' : StreamPair} {x : Side} {t : Nat}
  {e : Event}

theorem create (matched : Matched c) (draws : Side → Nat → Nat) (now : Side → Nat) :
    Works c (.create c draws now) where
  configuration := fun _ => rfl
  sound := fun x => .create (matched.accepted x) _ _
  halfClose := fun x => .create _ _ _
  undisturbed := fun x => {
    timer := by simp [StreamPair.create, Session.create]
    signals := by simp [StreamPair.create, Session.create, Operation.initiate]
    receives := by simp [StreamPair.create, Session.create]
    sends := by simp [StreamPair.create, Session.create] }
  clear := fun _ => rfl
  linked := fun x => {
    delivered := ⟨[], 0, .of_idle rfl (by simp [StreamPair.create, Session.create,
      Session.receiveView]) rfl, rfl⟩
    ended := by simp [AtEnd, StreamPair.create, Session.create] }

theorem ceased_of_gone (h : Works c p) (matched : Matched c) (x : Side)
    (gone : (p.session x).isShutdown = true ∨ (p.session x).isOpen = false) :
    Ceased (p.session x) := by
  have configuration := h.configuration x
  exact .of_gone (h.sound x) (h.halfClose x) (configuration ▸ matched.tcp x)
    (configuration ▸ matched.policy x) gone

/-- A side that is gone has read its stream to the end. -/
theorem channel_of_closed (h : Works c p) (closed : (p.session x).isOpen = false) :
    p.channel x = [] ∧ Ceased (p.session x.other) := by
  have done : (p.session x).isDone = true := by simpa [(h.sound x).ending.isOpen] using closed
  simp only [Session.isDone, Bool.and_eq_true] at done
  exact (h.linked x).ended (.inr done.1)

/-- The connection has no failure to report. -/
theorem undisturbed_step (h : Works c p) (matched : Matched c)
    (permitted : Permitted flow p x e) {s : Session} (hs : (p.session x).step (t, e) = some s) :
    Undisturbed s := by
  refine (h.undisturbed x).step (h.sound x) hs ?_ ?_ ?_ ?_
  · rintro i rfl
    exact permitted
  · rintro n rfl
    exact permitted
  · rintro i f rfl
    by_contra other
    simp only [Permitted, if_neg other] at permitted
    exact permitted.2 (h.channel_of_closed permitted.1).1
  · rintro i f rfl
    have pending : (p.session x).sends ≠ [] := by
      cases Session.step_cases (h.sound x).tidy hs with
      | sendFails f call pending => simp [pending]
    refine pending (Ceased.sends ?_ (h.sound x))
    rcases permitted with shutdown | closed
    · exact h.ceased_of_gone matched x (.inl shutdown)
    · have gone := (h.channel_of_closed closed).2
      cases x <;> exact gone

/-- No side is given a reason to abort. -/
theorem no_cause (h : Works c p) (matched : Matched c) {f : ErrorCode} {n : Nat}
    (cause : AbortCause (p.session x) f n) : n = 0 := by
  by_contra positive
  obtain ⟨delivered, counted, delivery, split⟩ := (h.linked x).delivered
  have own := h.configuration x
  have peer := h.configuration x.other
  have size := matched.size x
  have bounded := (c x).size.bounded
  obtain ⟨exact, within⟩ := delivered_pattern (h.sound x.other) split
  have counter : (p.session x).receiveView.received.value = counted % 2 ^ 64 := delivery.counter
  rw [peer, size] at within
  rcases (h.undisturbed x).cause cause positive with
    ⟨slice, size, k, ready, mismatch⟩ | ⟨slice, size, ready⟩ | ⟨size, k, ready⟩
  · -- The bytes that were received are those of the pattern.
    obtain ⟨length, held, nonempty⟩ := delivery.held _ k ready
    refine mismatch (mismatches_eq_zero _ counter (fun _ => nonempty (own ▸ matched.tcp x)) ?_)
    intro i hi
    have at_i := held i hi
    rw [exact, pattern_getElem? (by omega)] at at_i
    exact (Option.some.inj at_i).symm
  · -- The peer ends its stream after the whole of it.
    obtain ⟨none, ceased⟩ := (h.linked x).ended (.inl ⟨_, ready⟩)
    have used := ((h.sound x).receive.slice ready).used
    have short := ((h.sound x).receive.slice ready).short
    rw [own] at used short
    have sends : (p.session x.other).configuration.direction ≠ .rx := by
      rw [peer]
      exact fun unused => used ((matched.roles x).mpr unused)
    have whole := (ceased.acceptedBySocket (h.sound x.other) sends).2
    rw [split, none, List.append_nil] at whole
    have length := congrArg List.length whole
    have idle := delivery.idle (by simp [Session.receiveView, ready])
    rw [pattern_length, peer] at length
    omega
  · -- The probe for the end finds no data behind the whole stream.
    have ended := ((h.sound x).receive.probe ready).ended
    obtain ⟨length, _, nonempty⟩ := delivery.held _ k ready
    have nonempty := nonempty (own ▸ matched.tcp x)
    rw [own] at ended
    rcases ended with ⟨unused, _, _⟩ | ⟨_, full, _⟩
    · have silent : (p.session x.other).acceptedBySocket = [] := by
        apply acceptedBySocket_unused (h.sound x.other)
        rw [peer]
        exact (matched.roles x).mp unused
      rw [split, List.append_eq_nil_iff] at silent
      simp only [silent.1, List.length_nil] at length
      omega
    · omega

theorem clear_step (h : Works c p) (matched : Matched c) {s : Session}
    (hs : (p.session x).step (t, e) = some s) : s.failure = none := by
  have same : s.report = (p.session x).report := by
    cases (Session.step_frame (h.sound x).tidy hs).reports with
    | complete completion event report => exact report
    | invoke handler event f n cause report =>
      rw [report, h.no_cause matched cause]
      rfl
  exact (congrArg Report.failure same).trans (h.clear x)

/-- The stream to the side that takes a step. -/
theorem linked_step (h : Works c p) (matched : Matched c)
    (hs : p.step flow (x, t, e) = some p') : Linked p' x := by
  obtain ⟨permitted, hs, peer, channel, _⟩ := step_eq_some hs
  obtain ⟨delivered, counted, delivery, split⟩ := (h.linked x).delivered
  have configuration := (Session.step_frame (h.sound x).tidy hs).configuration
  have tcp : (p.session x).configuration.protocol = .tcp := h.configuration x ▸ matched.tcp x
  -- An event that delivers nothing leaves the stream as it is.
  have still : (∀ i data, e ≠ .complete (.received i (.ok data))) → p'.channel x = p.channel x := by
    intro other
    rw [channel, pulled_eq_zero other]
    rfl
  refine ⟨?_, fun ended => ?_⟩
  · rw [configuration, peer, split]
    cases delivery.step (h.sound x) hs with
    | fill i data event call pending filled after =>
      subst event
      obtain ⟨rest, unread⟩ : data <+: p.channel x := permitted
      refine ⟨_, counted, after, ?_⟩
      rw [channel, ← unread]
      simp [pulled]
    | count slice size n ready other report free after =>
      exact ⟨delivered, _, after, by rw [still other]⟩
    | still other same after => exact ⟨delivered, counted, after, by rw [still other]⟩
    | surplus size n ready failed => exact absurd (h.clear_step matched hs) failed
  · rw [peer]
    by_cases event : ∃ i, e = .complete (.received i (.error .eof))
    · obtain ⟨i, rfl⟩ := event
      simp only [Permitted, if_true] at permitted
      exact ⟨channel.trans permitted.1, h.ceased_of_gone matched x.other permitted.2⟩
    · obtain ⟨none, ceased⟩ := (h.linked x).ended
        (ended.of_step (h.sound x) tcp hs fun i eq => event ⟨i, eq⟩)
      refine ⟨?_, ceased⟩
      rw [channel, none]
      exact List.drop_nil

/-- The stream from the side that takes a step. -/
theorem linked_other_step (h : Works c p) (hs : p.step flow (x, t, e) = some p') :
    Linked p' x.other := by
  obtain ⟨_, hs, peer, _, channel⟩ := step_eq_some hs
  obtain ⟨delivered, counted, delivery, split⟩ := (h.linked x.other).delivered
  rw [x.other_other] at split
  refine ⟨⟨delivered, counted, peer.symm ▸ delivery, ?_⟩, fun ended => ?_⟩
  · rw [x.other_other, acceptedBySocket_step (h.sound x) hs, split, channel, List.append_assoc]
  · rw [peer] at ended
    obtain ⟨none, ceased⟩ := (h.linked x.other).ended ended
    rw [x.other_other] at ceased ⊢
    exact ⟨by rw [channel, none, ceased.push (h.sound x)]; rfl, ceased.step (h.sound x) hs⟩

theorem step (h : Works c p) (matched : Matched c) (hs : p.step flow (x, t, e) = some p') :
    Works c p' := by
  have linked := h.linked_step matched hs
  have linkedOther := h.linked_other_step hs
  obtain ⟨permitted, hs, peer, _, _⟩ := step_eq_some hs
  have configuration := (Session.step_frame (h.sound x).tidy hs).configuration
  have each : ∀ P : Side → Session → Prop, (∀ y, P y (p.session y)) → P x (p'.session x) →
      ∀ y, P y (p'.session y) := by
    intro P before own y
    rcases x.eq_or_other y with rfl | rfl
    · exact own
    · exact peer.symm ▸ before x.other
  have accepted : Accepted (p.session x).configuration := h.configuration x ▸ matched.accepted x
  exact {
    configuration := each (fun y s => s.configuration = c y) h.configuration
      (configuration.trans (h.configuration x))
    sound := each _ h.sound ((h.sound x).step hs)
    halfClose := each _ h.halfClose ((h.halfClose x).step (h.sound x) accepted hs)
    undisturbed := each _ h.undisturbed (h.undisturbed_step matched permitted hs)
    clear := each (fun _ s => s.failure = none) h.clear (h.clear_step matched hs)
    linked := by
      intro y
      rcases x.eq_or_other y with rfl | rfl
      · exact linked
      · exact linkedOther }

theorem of_run (matched : Matched c) {draws : Side → Nat → Nat} {now : Side → Nat}
    {events : List (Side × Nat × Event)}
    (reach : Machine.run (StreamPair.step flow) (.create c draws now) events = some p) :
    Works c p :=
  Machine.run_invariant (Works c) (fun _ _ _ h hs => h.step matched hs)
    (create matched draws now) reach

end Works

end StreamPair

end NetTester

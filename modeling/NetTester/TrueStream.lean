import NetTester.HalfClosedOnce
import NetTester.StreamProgress

namespace NetTester

theorem Side.forall_of {P : Side → Prop} (x : Side) (own : P x) (other : P x.other) (y : Side) :
    P y := by
  rcases x.eq_or_other y with rfl | rfl
  · exact own
  · exact other

/-- The receive chain has come to rest: nothing is outstanding, and nothing will be asked for. -/
structure Deaf (s : Session) : Prop where
  started : s.statistics.startDate ≠ none
  receives : s.receives = []
  waits : s.receiveThrottle.waits = []

section

variable {s s' : Session} {t : Nat} {e : Event}

theorem Deaf.step (h : Deaf s) (sound : Sound s) (hs : s.step (t, e) = some s') : Deaf s' := by
  have view := HalfCloses.receive_still sound hs h.started h.receives h.waits
  have date : s'.statistics.startDate = s.statistics.startDate :=
    congrArg ReceiveView.startDate view
  have throttle : s'.receiveThrottle = s.receiveThrottle := congrArg ReceiveView.throttle view
  exact ⟨date ▸ h.started, (congrArg ReceiveView.receives view).trans h.receives,
    throttle ▸ h.waits⟩

end

namespace StreamPair

/-- What every connection keeps to, however it and the sessions are disturbed: it delivers to a side
the next bytes that the peer's socket accepted. -/
def Ordered (p : StreamPair) (x : Side) : Event → Prop
  | .complete (.received _ (.ok data)) => data <+: p.channel x
  | _ => True

instance (p : StreamPair) (x : Side) : DecidablePred (Ordered p x)
  | .complete (.received _ (.ok data)) => inferInstanceAs (Decidable (data <+: p.channel x))
  | .complete (.received _ (.error _)) => .isTrue trivial
  | .complete (.opened _ _) => .isTrue trivial
  | .complete (.sent _ _) => .isTrue trivial
  | .complete (.receiveSlice _) => .isTrue trivial
  | .complete (.sendSlice _) => .isTrue trivial
  | .complete (.timedOut _) => .isTrue trivial
  | .complete (.signalled _) => .isTrue trivial
  | .invoke _ => .isTrue trivial

/-- A step that time, signals and failures of either socket may disturb at any moment. -/
def disturbedStep (p : StreamPair) (event : Side × Nat × Event) : Option StreamPair :=
  let (x, t, e) := event
  if Ordered p x e then
    ((p.session x).step (t, e)).map fun s =>
      { session := Function.update p.session x s
        channel := fun y =>
          if y = x then (p.channel y).drop (pulled e) else p.channel y ++ (p.session x).push e }
  else
    none

variable {p p' : StreamPair} {x : Side} {t : Nat} {e : Event}

theorem disturbedStep_eq_some (h : p.disturbedStep (x, t, e) = some p') :
    Ordered p x e ∧ (p.session x).step (t, e) = some (p'.session x) ∧
      p'.session x.other = p.session x.other ∧
      p'.channel x = (p.channel x).drop (pulled e) ∧
      p'.channel x.other = p.channel x.other ++ (p.session x).push e := by
  simp only [disturbedStep] at h
  split at h
  next ordered =>
    obtain ⟨s, hs, rfl⟩ := Option.map_eq_some_iff.mp h
    exact ⟨ordered, by simp [hs], by simp, by simp, by simp⟩
  next => simp at h

/-- An undisturbed step is one of those that may be disturbed. -/
theorem disturbedStep_of_step {flow : Flow} {event : Side × Nat × Event}
    (h : p.step flow event = some p') : p.disturbedStep event = some p' := by
  obtain ⟨x, t, e⟩ := event
  obtain ⟨permitted, _⟩ := step_eq_some h
  have ordered : Ordered p x e := by
    unfold Ordered
    split
    next i data => exact permitted
    next => trivial
  simp only [step, if_pos permitted] at h
  simpa only [disturbedStep, if_pos ordered] using h

/-- The account of the stream to a side, whose last part is left uncounted when the probe for the
end of the stream finds bytes. -/
structure Heard (p : StreamPair) (x : Side) (delivered surplus : List UInt8) (counted : Nat) :
    Prop where
  delivery : Delivery (p.session x).configuration delivered counted (p.session x).receiveView
  split : (p.session x.other).acceptedBySocket = delivered ++ surplus ++ p.channel x
  deaf : surplus ≠ [] → Deaf (p.session x)
  failed : surplus ≠ [] → (p.session x).failure ≠ none

namespace Heard

variable {delivered surplus : List UInt8} {counted : Nat}

/-- The stream to the side that takes a step. -/
theorem step (h : Heard p x delivered surplus counted) (sound : Sound (p.session x))
    (hp : p.disturbedStep (x, t, e) = some p') :
    ∃ delivered surplus counted, Heard p' x delivered surplus counted := by
  obtain ⟨ordered, hs, peer, channel, _⟩ := disturbedStep_eq_some hp
  have frame := Session.step_frame sound.tidy hs
  have configuration := frame.configuration
  have failed : surplus ≠ [] → (p'.session x).failure ≠ none := fun some =>
    frame.reports.failure (h.failed some)
  have deaf : surplus ≠ [] → Deaf (p'.session x) := fun some => (h.deaf some).step sound hs
  have still : (∀ i data, e ≠ .complete (.received i (.ok data))) → p'.channel x = p.channel x := by
    intro other
    rw [channel, pulled_eq_zero other]
    rfl
  cases h.delivery.step sound hs with
  | fill i data event call pending filled after =>
    subst event
    obtain ⟨rest, unread⟩ : data <+: p.channel x := ordered
    have none : surplus = [] := by
      by_contra some
      simp [(h.deaf some).receives] at pending
    subst none
    refine ⟨_, [], counted, configuration ▸ after, ?_, by simp, by simp⟩
    rw [peer, h.split, channel, ← unread]
    simp [pulled]
  | count slice size n ready other report free after =>
    exact ⟨_, surplus, _, configuration ▸ after, by rw [peer, h.split, still other], deaf,
      failed⟩
  | still other same after =>
    exact ⟨_, surplus, _, configuration ▸ after, by rw [peer, h.split, still other], deaf,
      failed⟩
  | surplus size n ready failed' other =>
    have none : surplus = [] := by
      by_contra some
      simp [(h.deaf some).receives] at ready
    subst none
    rcases HalfCloses.probe_step sound hs ready with view | ⟨complete, view⟩
    · refine ⟨delivered, [], counted, ?_, by rw [peer, h.split, still other], by simp, by simp⟩
      rw [view, configuration]
      exact h.delivery
    · -- The bytes of the probe move from the delivered ones to the surplus.
      have held := (h.delivery.held _ n ready).1
      obtain ⟨started, waits⟩ := HalfCloses.probe_handled sound hs ready
      refine ⟨delivered.take counted, delivered.drop counted, counted, .of_idle ?_ ?_ ?_, ?_,
        fun _ => ⟨started, congrArg ReceiveView.receives view, waits⟩, fun _ => failed'⟩
      · rw [view]
        exact h.delivery.counter
      · simp [view]
      · simp
        omega
      · rw [peer, h.split, still other, List.take_append_drop, List.append_nil]

/-- The stream from the side that takes a step. -/
theorem step_other (h : Heard p x.other delivered surplus counted) (sound : Sound (p.session x))
    (hp : p.disturbedStep (x, t, e) = some p') :
    Heard p' x.other delivered surplus counted := by
  obtain ⟨_, hs, peer, _, channel⟩ := disturbedStep_eq_some hp
  obtain ⟨delivery, split, deaf, failed⟩ := h
  rw [x.other_other] at split
  refine ⟨peer.symm ▸ delivery, ?_, peer.symm ▸ deaf, peer.symm ▸ failed⟩
  rw [x.other_other, acceptedBySocket_step sound hs, split, channel]
  simp only [List.append_assoc]

end Heard

/-- The invariant of two stream sessions that may be disturbed. -/
structure Truthful (c : Side → SessionConfiguration) (p : StreamPair) : Prop where
  configuration : ∀ x, (p.session x).configuration = c x
  sound : ∀ x, Sound (p.session x)
  heard : ∀ x, ∃ delivered surplus counted, Heard p x delivered surplus counted
  silent : ∀ x, .tester .dataMismatch ∉ (p.session x).aborts

namespace Truthful

variable {c : Side → SessionConfiguration}

theorem create (accepted : ∀ x, Accepted (c x)) (draws : Side → Nat → Nat) (now : Side → Nat) :
    Truthful c (.create c draws now) where
  configuration := fun _ => rfl
  sound := fun x => .create (accepted x) _ _
  heard := fun x => ⟨[], [], 0, .of_idle rfl (by simp [StreamPair.create, Session.create,
    Session.receiveView]) rfl, rfl, by simp, by simp⟩
  silent := by simp [StreamPair.create, Session.create, Session.aborts]

/-- The bytes that a handler is about to judge are those of the pattern. -/
theorem matching (h : Truthful c p) (tcp : ∀ x, (c x).protocol = .tcp) {slice size n : Nat}
    (ready : (p.session x).receives = [⟨⟨.onReceive slice, size⟩, some (.ok n)⟩]) :
    (p.session x).receiveView.mismatches (p.session x).configuration.verify n = 0 := by
  obtain ⟨delivered, surplus, counted, delivery, split, _⟩ := h.heard x
  rw [List.append_assoc] at split
  obtain ⟨exact, _⟩ := delivered_pattern (h.sound x.other) split
  obtain ⟨length, held, nonempty⟩ := delivery.held _ n ready
  refine mismatches_eq_zero _ delivery.counter (fun _ => nonempty (h.configuration x ▸ tcp x)) ?_
  intro i hi
  have at_i := held i hi
  rw [exact, pattern_getElem? (by omega)] at at_i
  exact (Option.some.inj at_i).symm

theorem step (h : Truthful c p) (tcp : ∀ x, (c x).protocol = .tcp)
    (hp : p.disturbedStep (x, t, e) = some p') : Truthful c p' := by
  obtain ⟨delivered, surplus, counted, heard⟩ := h.heard x
  obtain ⟨delivered', surplus', counted', heard'⟩ := h.heard x.other
  obtain ⟨_, hs, peer, _⟩ := disturbedStep_eq_some hp
  have frame := Session.step_frame (h.sound x).tidy hs
  refine ⟨Side.forall_of x ?_ ?_, Side.forall_of x ?_ ?_, Side.forall_of x ?_ ?_,
    Side.forall_of x ?_ ?_⟩
  · exact frame.configuration.trans (h.configuration x)
  · exact peer ▸ h.configuration x.other
  · exact (h.sound x).step hs
  · exact peer ▸ h.sound x.other
  · exact heard.step (h.sound x) hp
  · exact ⟨_, _, _, heard'.step_other (h.sound x) hp⟩
  · intro member
    rcases frame.reports.cause member with old | ⟨n, cause, positive⟩
    · exact h.silent x old
    · obtain ⟨slice, size, k, ready, mismatch⟩ := (h.sound x).mismatch_cause cause positive
      exact mismatch (h.matching tcp ready)
  · exact peer ▸ h.silent x.other

theorem of_run (accepted : ∀ x, Accepted (c x)) (tcp : ∀ x, (c x).protocol = .tcp)
    {draws : Side → Nat → Nat} {now : Side → Nat} {events : List (Side × Nat × Event)}
    (reach : Machine.run disturbedStep (.create c draws now) events = some p) : Truthful c p :=
  Machine.run_invariant (Truthful c) (fun _ _ _ h hp => h.step tcp hp) (create accepted draws now)
    reach

/-- A session counts or holds at most what the socket of its peer accepted. -/
theorem counted_le (h : Truthful c p) (x : Side) :
    (p.session x).statistics.receivedBytesCount.value + (p.session x).heldBytes ≤
      (p.session x.other).acceptedBySocket.length := by
  obtain ⟨delivered, surplus, counted, delivery, split, _⟩ := h.heard x
  have account := delivery.length (h.sound x).tidy.receives
  have counter : (p.session x).statistics.receivedBytesCount.value = counted % 2 ^ 64 :=
    delivery.counter
  have lengths := congrArg List.length split
  simp only [List.length_append] at lengths
  omega

end Truthful

end StreamPair

/-- Two stream sessions of any configurations never accuse each other of corrupted data, however
timers, signals and failures disturb them, and neither counts a byte that the other did not send. -/
theorem stream_true {c : Side → SessionConfiguration} (accepted : ∀ x, Accepted (c x))
    (tcp : ∀ x, (c x).protocol = .tcp) {draws : Side → Nat → Nat} {now : Side → Nat}
    {events : List (Side × Nat × Event)} {p : StreamPair}
    (reach : Machine.run StreamPair.disturbedStep (.create c draws now) events = some p)
    (x : Side) :
    Call.abort (.tester .dataMismatch) ∉ (p.session x).calls ∧
      (p.session x).finalize ≠ some (.tester .dataMismatch) ∧
      (p.session x).statistics.receivedBytesCount.value + (p.session x).heldBytes ≤
        (p.session x.other).acceptedBySocket.length ∧
      (p.session x.other).acceptedBySocket.length ≤ (c x.other).size.value := by
  have h := StreamPair.Truthful.of_run accepted tcp reach
  refine ⟨fun called => ?_, fun failed => ?_, h.counted_le x, ?_⟩
  · exact h.silent x (List.mem_filterMap.mpr ⟨_, called, rfl⟩)
  · have recorded := (h.sound x).ending.failure.symm.trans failed
    exact h.silent x (List.mem_of_head? recorded)
  · obtain ⟨n, bound, all⟩ := Session.acceptedBySocket_pattern (h.sound x.other)
    rw [all, pattern_length, ← h.configuration x.other]
    exact bound

/-- The right side is interrupted while the first byte of the left one is on its way. -/
def interruptedPair : List (Side × Nat × Event) :=
  openSide .left ++ openSide .right ++ sendSide .left ++
    [(.right, 0, .complete (.signalled .sigint)), (.right, 0, .complete (.received 0 (.ok [0]))),
      (.right, 0, .invoke (.onReceive 0)), (.right, 0, .invoke (.onSignal 0))]

theorem stream_true_interrupted : ∃ p, Machine.run StreamPair.disturbedStep
    (.create (fun _ => { defaultConfiguration "127.0.0.1:1234" ⟨2, .iec, by decide⟩ with
      verify := .all }) (fun _ _ => 0) (fun _ => 0)) interruptedPair = some p ∧
    (p.session .right).finalize = some (.tester .userInterrupt) ∧
    1 ≤ (p.session .left).acceptedBySocket.length := by
  refine Machine.exists_run (fun p => ((p.session .right).finalize,
    (p.session .right).statistics.receivedBytesCount.value))
    (b := (some (.tester .userInterrupt), 1)) (by decide +kernel) ?_
  intro p reach observed
  obtain ⟨failed, counted⟩ := Prod.mk.inj observed
  have truthful := stream_true (fun _ => accepted_iff.mpr (by decide)) (fun _ => rfl) reach .right
  exact ⟨failed, counted ▸ (Nat.le_add_right _ _).trans truthful.2.2.1⟩

end NetTester

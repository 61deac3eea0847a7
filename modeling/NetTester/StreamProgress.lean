import NetTester.Enabled
import NetTester.StreamLink

namespace NetTester

namespace StreamPair

/-- No completion can occur any more, on either side and at any instant. -/
def Halted (flow : Flow) (p : StreamPair) : Prop := ∀ event, p.step flow event = none

variable {c : Side → SessionConfiguration} {flow : Flow} {p : StreamPair} {x : Side} {e : Event}

theorem Halted.disabled (h : Halted flow p) (permitted : Permitted flow p x e) :
    ¬(p.session x).Enabled e := by
  rintro ⟨t, s', hs⟩
  have stuck := h (x, t, e)
  simp [step, permitted, hs] at stuck

/-- Two idle sessions are at rest. -/
theorem halted_of_idle (idle : ∀ x, (p.session x).isIdle = true) : Halted flow p := by
  rintro ⟨x, t, e⟩
  by_contra moves
  obtain ⟨p', hp⟩ := Option.ne_none_iff_exists'.mp moves
  obtain ⟨permitted, hs, _⟩ := step_eq_some hp
  obtain ⟨⟨n, rfl⟩, _⟩ := Session.isIdle_step (idle x) hs
  exact permitted

namespace Works

theorem alive (h : Works c p) (matched : Matched c) (x : Side) :
    (p.session x).assertionFailed = false := by
  refine (h.sound x).send.alive fun udp => ?_
  rw [h.configuration x, matched.tcp x] at udp
  cases udp

theorem started (h : Works c p) (matched : Matched c) (halted : Halted flow p) (x : Side) :
    (p.session x).statistics.startDate ≠ none := by
  have opens := Session.opens_eq_nil (h.alive matched x) (h.sound x).tidy.connects
    (halted.disabled rfl) (halted.disabled trivial)
  cases (h.sound x).opening with
  | connecting tcp date r pending => simp [opens] at pending
  | connected tcp date => exact date
  | posted udp =>
    rw [h.configuration x, matched.tcp x] at udp
    cases udp
  | started udp date => exact date

/-- When nothing can happen the receive chain is at its end, or waits for bytes of which none are on
their way. -/
theorem receive_halted (h : Works c p) (matched : Matched c) (halted : Halted flow p) (x : Side) :
    p.channel x = [] ∧ ((p.session x).isReceiveComplete = true ∨
      ∃ call, (p.session x).receives = [⟨call, none⟩]) := by
  have alive := h.alive matched x
  have waits := Session.receiveWaits_eq_nil alive (h.sound x).tidy.receiveWaits
    (halted.disabled trivial) (halted.disabled trivial)
  have pending : ∀ call r, (p.session x).receives = [⟨call, r⟩] → call.bufferSize ≠ 0 →
      p.channel x = [] ∧ ((p.session x).isReceiveComplete = true ∨
        ∃ call, (p.session x).receives = [⟨call, none⟩]) := by
    intro call r receives room
    obtain rfl := Session.receives_pending alive (halted.disabled trivial) receives
    refine ⟨?_, .inr ⟨call, receives⟩⟩
    by_contra unread
    obtain ⟨b, rest, channel⟩ := List.exists_cons_of_ne_nil unread
    have permitted : Permitted flow p x (.complete (.received 0 (.ok [b]))) :=
      ⟨rest, channel.symm⟩
    exact halted.disabled permitted (Session.enabled_delivery alive receives (by simp)
      (by simp only [List.length_singleton]; omega))
  cases (h.sound x).receive with
  | unstarted date => exact absurd date (h.started matched halted x)
  | waiting start total r budget used short receives pending' =>
    have pending' : (p.session x).receiveThrottle.waits = _ := pending'
    simp [waits] at pending'
  | receiving start total slice r budget used short positive bounded receives =>
    refine pending _ r receives ?_
    have : bufferSize = 131072 := rfl
    simp only
    omega
  | probing r ended stream receives => exact pending _ r receives (by decide)
  | complete ended receives waits complete =>
    exact ⟨((h.linked x).ended (.inr complete)).1, .inl complete⟩
  | stopped failure => exact absurd (h.clear x) failure

theorem send_halted (h : Works c p) (matched : Matched c) (halted : Halted flow p) (x : Side) :
    (p.session x).isSendComplete = true ∧
      ((c x).direction ≠ .rx → (p.session x).isShutdown = true) := by
  have alive := h.alive matched x
  have waits := Session.sendWaits_eq_nil alive (h.sound x).tidy.sendWaits
    (halted.disabled trivial) (halted.disabled trivial)
  have own := h.configuration x
  have shutdown : (c x).direction ≠ .rx →
      (p.session x).isShutdown = decide ((p.session x).calls.count .finishSend ≠ 0) := fun used =>
    (h.halfClose x).sendComplete (own ▸ matched.tcp x) (own ▸ matched.policy x used)
  cases (h.sound x).send with
  | unstarted date => exact absurd date (h.started matched halted x)
  | unused direction date sent accepted sends waits complete =>
    exact ⟨complete, fun used => absurd (own ▸ direction) used⟩
  | waiting start r budget used short sends pending =>
    have pending : (p.session x).sendThrottle.waits = _ := pending
    simp [waits] at pending
  | sending start call r budget offer used sends waits fits live incomplete alive' unfinished =>
    have sends : (p.session x).sends = _ := sends
    have unfinished : (p.session x).calls.count .finishSend = 0 := unfinished
    obtain rfl := Session.sends_pending alive (halted.disabled trivial) sends
    have positive := offer.stream (own ▸ matched.tcp x)
    have permitted : Permitted flow p x (.complete (.sent 0 (.ok 1))) := by
      refine ⟨by decide, ?_, ?_⟩
      · rw [shutdown (own ▸ used), unfinished]
        rfl
      · rw [(h.receive_halted matched halted x.other).1]
        exact flow.empty
    exact absurd (Session.enabled_sent alive sends (by omega)) (halted.disabled permitted)
  | complete start budget used full sends waits complete alive' finished =>
    have finished : (p.session x).calls.count .finishSend = 1 := finished
    refine ⟨complete, fun used => ?_⟩
    rw [shutdown used, finished]
    rfl
  | stopped start remaining cause =>
    rcases cause with failure | failed
    · exact absurd (h.clear x) failure
    · have failed : (p.session x).assertionFailed = true := failed
      simp [alive] at failed

/-- A side whose peer is gone finds the end of its stream. -/
theorem receive_complete (h : Works c p) (matched : Matched c) (halted : Halted flow p)
    (gone : (p.session x.other).isShutdown = true ∨ (p.session x.other).isOpen = false) :
    (p.session x).isReceiveComplete = true := by
  obtain ⟨none, complete | ⟨call, pending⟩⟩ := h.receive_halted matched halted x
  · exact complete
  have permitted : Permitted flow p x (.complete (.received 0 (.error .eof))) := by
    simp only [Permitted, if_true]
    exact ⟨none, gone⟩
  exact absurd (Session.enabled_eof (h.alive matched x) pending) (halted.disabled permitted)

/-- The side whose peer sends ends on the half-close of the peer, the other one on its close. -/
theorem done (h : Works c p) (matched : Matched c) (halted : Halted flow p) (x : Side) :
    (p.session x).isDone = true := by
  have receiver : ∀ y, (c y.other).direction ≠ .rx → (p.session y).isDone = true := by
    intro y sends
    have complete := h.receive_complete matched halted
      (.inl ((h.send_halted matched halted y.other).2 sends))
    simp [Session.isDone, complete, (h.send_halted matched halted y).1]
  by_cases silent : (c x.other).direction = .rx
  · have sends : (c x.other.other).direction ≠ .rx := by
      rw [x.other_other, (matched.roles x).mpr silent]
      decide
    have peer := receiver x.other sends
    have closed : (p.session x.other).isOpen = false := by
      rw [(h.sound x.other).ending.isOpen, peer]
      rfl
    have complete := h.receive_complete matched halted (.inr closed)
    simp [Session.isDone, complete, (h.send_halted matched halted x).1]
  · exact receiver x silent

theorem received (h : Works c p) (matched : Matched c)
    (complete : (p.session x).isReceiveComplete = true) (used : (c x).direction ≠ .tx) :
    (p.session x).statistics.receivedBytesCount.value = (c x).size.value := by
  obtain ⟨delivered, counted, delivery, split⟩ := (h.linked x).delivered
  obtain ⟨none, ceased⟩ := (h.linked x).ended (.inr complete)
  have peer := h.configuration x.other
  have sends : (p.session x.other).configuration.direction ≠ .rx := by
    rw [peer]
    exact fun unused => used ((matched.roles x).mpr unused)
  have whole := (ceased.acceptedBySocket (h.sound x.other) sends).2
  rw [split, none, List.append_nil] at whole
  have length := congrArg List.length whole
  rw [pattern_length, peer, matched.size x] at length
  have receives := (h.sound x).tidy.receiveComplete complete
  have idle := delivery.idle (by simp [Session.receiveView, receives])
  have counter : (p.session x).statistics.receivedBytesCount.value = counted % 2 ^ 64 :=
    delivery.counter
  have bounded := (c x).size.bounded
  omega

end Works

end StreamPair

/-- Two sessions that are to work together never abort, and they only come to rest when both have
finished with every byte sent and received. -/
theorem stream_pair_finishes {c : Side → SessionConfiguration} (accepted : ∀ x, Accepted (c x))
    (tcp : ∀ x, (c x).protocol = .tcp) (size : (c .left).size.value = (c .right).size.value)
    (compatible : Compatible (c .left) (c .right)) {flow : Flow} {draws : Side → Nat → Nat}
    {now : Side → Nat} {events : List (Side × Nat × Event)} {p : StreamPair}
    (reach : Machine.run (StreamPair.step flow) (.create c draws now) events = some p) :
    (∀ x failure, Call.abort failure ∉ (p.session x).calls) ∧
      ((∀ event, p.step flow event = none) → ∀ x,
        Call.onFinish ∈ (p.session x).calls ∧
        ((c x).direction ≠ .rx →
          (p.session x).statistics.sentBytesCount.value = (c x).size.value) ∧
        ((c x).direction ≠ .tx →
          (p.session x).statistics.receivedBytesCount.value = (c x).size.value)) := by
  have matched := Matched.of_compatible accepted tcp size compatible
  have h := StreamPair.Works.of_run matched reach
  refine ⟨fun x failure called => ?_, fun halted x => ?_⟩
  · have member : failure ∈ (p.session x).aborts :=
      List.mem_filterMap.mpr ⟨_, called, rfl⟩
    have none := (h.sound x).ending.failure
    rw [h.clear x] at none
    rw [List.head?_eq_none_iff.mp none.symm] at member
    simp at member
  · have done := h.done matched halted x
    have finishes := (h.sound x).ending.finishes
    rw [if_pos done] at finishes
    simp only [Session.isDone, Bool.and_eq_true] at done
    refine ⟨List.count_pos_iff.mp (by omega), fun used => ?_, fun used => ?_⟩
    · have own := h.configuration x
      have full := Ceased.acceptedBySocket (.inr done.2) (h.sound x) (own ▸ used)
      rw [← own]
      exact full.1
    · exact h.received matched done.1 used

/-- The events of a side that connects and waits for its first slices. -/
def openSide (x : Side) : List (Side × Nat × Event) :=
  [(x, 0, .complete (.opened 0 none)), (x, 0, .invoke (.posted 0)), (x, 0, .invoke (.onConnect 0)),
    (x, 0, .complete (.receiveSlice 0)), (x, 0, .invoke (.receiveThrottle 0)),
    (x, 0, .complete (.sendSlice 0)), (x, 0, .invoke (.sendThrottle 0))]

/-- The events of a side that sends a byte and half-closes. -/
def sendSide (x : Side) : List (Side × Nat × Event) :=
  [(x, 0, .complete (.sent 0 (.ok 1))), (x, 0, .invoke (.onSend 0))]

/-- The events of a side that receives a byte and the end of the stream, and finishes. -/
def receiveSide (x : Side) : List (Side × Nat × Event) :=
  [(x, 0, .complete (.received 0 (.ok [0]))), (x, 0, .invoke (.onReceive 0)),
    (x, 0, .complete (.received 0 (.error .eof))), (x, 0, .invoke (.onReceive 0)),
    (x, 0, .invoke (.onTimeout 0)), (x, 0, .invoke (.onSignal 0))]

theorem stream_pair_finishes_one : ∃ p, Machine.run (StreamPair.step ⟨fun _ _ => true, rfl⟩)
    (.create (fun _ => defaultConfiguration "127.0.0.1:1234" ⟨1, .iec, by decide⟩)
      (fun _ _ => 0) (fun _ => 0))
    (openSide .left ++ openSide .right ++ sendSide .left ++ sendSide .right ++
      receiveSide .left ++ receiveSide .right) = some p ∧
    ∀ x, Call.onFinish ∈ (p.session x).calls ∧
      (p.session x).statistics.sentBytesCount.value = 1 ∧
      (p.session x).statistics.receivedBytesCount.value = 1 := by
  refine Machine.exists_run (fun p => ((p.session .left).isIdle, (p.session .right).isIdle))
    (b := (true, true)) (by decide +kernel) ?_
  intro p reach observed
  obtain ⟨left, right⟩ := Prod.mk.inj observed
  have idle : ∀ x, (p.session x).isIdle = true := by
    intro x
    cases x with
    | left => exact left
    | right => exact right
  intro x
  obtain ⟨finish, sent, received⟩ := (stream_pair_finishes
    (fun _ => accepted_default _ (by decide)) (fun _ => rfl) rfl (.both rfl rfl rfl rfl) reach).2
    (StreamPair.halted_of_idle idle) x
  exact ⟨finish, sent (by decide), received (by decide)⟩

end NetTester

import NetTester.TrueStream

namespace NetTester

/-- The socket has taken everything that the side is to send. -/
def Spent (s : Session) : Prop :=
  s.configuration.direction = .rx ∨ s.acceptedBySocket.length = s.configuration.size.value

/-- The side has half-closed or closed, so that its peer may find the end of the stream. -/
def Gone (s : Session) : Prop := s.isShutdown = true ∨ s.isOpen = false

section

variable {s s' : Session} {t : Nat} {e : Event}

/-- A completion of a send finds it pending. -/
theorem completeSend_pending (sound : Sound s) {i : Nat} {r : Except ErrorCode Nat}
    (hs : s.step (t, .complete (.sent i r)) = some s') : ∃ call, s.sends = [⟨call, none⟩] := by
  cases Session.step_cases sound.tidy hs with
  | sent n call pending => exact ⟨call, pending⟩
  | sendFails f call pending => exact ⟨call, pending⟩

namespace Spent

theorem acceptedBySocket_le (sound : Sound s) :
    s.acceptedBySocket.length ≤ s.configuration.size.value := by
  obtain ⟨n, bound, all⟩ := Session.acceptedBySocket_pattern sound
  rwa [all, pattern_length]

/-- A side that has sent everything has no byte outstanding. -/
theorem not_pending (h : Spent s) (sound : Sound s) (call : SendCall) :
    s.sends ≠ [⟨call, none⟩] := by
  intro pending
  rcases h with unused | full
  · simp [Ceased.sends (.inl unused) sound] at pending
  · have sending := sound.send.slice pending
    obtain ⟨start, budget⟩ := sending.budget
    have within := budget.budget
    have positive := sending.offer.positive
    have accepted : s.accepted = pattern s.statistics.sentBytesCount.value := sound.send.accepted
    rw [Session.acceptedBySocket, pending, accepted, List.length_append, pattern_length] at full
    have none : ([⟨call, none⟩] : List (Operation SendCall (Except ErrorCode Nat))).flatMap
        queuedBytes = [] := rfl
    rw [none, List.length_nil] at full
    have : s.sendView.sent.value = s.statistics.sentBytesCount.value := rfl
    omega

theorem push (h : Spent s) (sound : Sound s) (hs : s.step (t, e) = some s') : s.push e = [] := by
  rcases h with unused | full
  · exact Ceased.push (.inl unused) sound e
  · have after := acceptedBySocket_le (sound.step hs)
    rw [acceptedBySocket_step sound hs, (Session.step_frame sound.tidy hs).configuration,
      List.length_append] at after
    exact List.eq_nil_of_length_eq_zero (by omega)

end Spent

/-- A stream session that has half-closed has come to the point where its policy has it do so. -/
theorem HalfCloses.due_of_shutdown (h : HalfCloses s) (tcp : s.configuration.protocol = .tcp)
    (shutdown : s.isShutdown = true) :
    (s.configuration.shutdownPolicy = .sendComplete ∧ s.sendView.finishes ≠ 0) ∨
      (s.configuration.shutdownPolicy = .receiveComplete ∧ s.receiveView.finishes ≠ 0) ∨
      (s.configuration.shutdownPolicy = .waitForPeer ∧ s.ends.eofs ≠ 0) := by
  rw [h.closed, decide_eq_true_eq, h.balance] at shutdown
  unfold Session.due at shutdown
  rw [tcp] at shutdown
  cases policy : s.configuration.shutdownPolicy with
  | sendComplete =>
    rw [policy] at shutdown
    exact .inl ⟨rfl, shutdown⟩
  | receiveComplete =>
    rw [policy] at shutdown
    exact .inr (.inl ⟨rfl, shutdown⟩)
  | waitForPeer =>
    rw [policy] at shutdown
    exact .inr (.inr ⟨rfl, shutdown⟩)

/-- A side that is complete has counted the whole size. -/
theorem Sound.full_of_complete (sound : Sound s) (used : s.configuration.direction ≠ .tx)
    (complete : s.isReceiveComplete = true) :
    s.configuration.size.value ≤ s.statistics.receivedBytesCount.value := by
  cases sound.receive with
  | complete ended =>
    rcases ended with ⟨unused, _⟩ | ⟨_, full, _⟩
    · exact absurd unused used
    · exact full
  | _ => simp_all [Session.receiveView]

theorem done_step (sound : Sound s) (hs : s.step (t, e) = some s') (done : s.isDone = true) :
    s'.isDone = true := by
  cases Session.step_endMove sound.tidy hs with
  | chain step =>
    cases step with
    | still view same => exact same.trans done
    | finish view before after => exact after
  | arm duration i posted hi view same => exact same.trans done
  | timedOut i after event completes view same => exact same.trans done
  | timeout i x failure after ready view same => exact same.trans done
  | signalled n event view same => exact same.trans done
  | signal i r after ready view same => exact same.trans done

theorem Gone.done (sound : Sound s) (closed : s.isOpen = false) : s.isDone = true := by
  simpa [sound.ending.isOpen] using closed

/-- A half-close or close is never undone. -/
theorem Gone.step (h : Gone s) (sound : Sound s) (halfCloses : HalfCloses s)
    (hs : s.step (t, e) = some s') : Gone s' := by
  rcases h with shutdown | closed
  · refine .inl ?_
    rw [halfCloses.closed, decide_eq_true_eq] at shutdown
    rw [(halfCloses.step sound hs).closed, decide_eq_true_eq]
    cases Session.step_ends sound.tidy hs with
    | still same => rwa [same]
    | finishReceive complete stream same => rw [same]; simp only [Ends.close_shutdowns]; omega
    | finishSend same => rw [same]; simp only [Ends.close_shutdowns]; omega
    | onEof size r ready receives complete same =>
      rw [same]
      simp only [Ends.close_shutdowns]
      omega
  · refine .inr ?_
    rw [(sound.step hs).ending.isOpen, done_step sound hs (Gone.done sound closed)]
    rfl

end

/-- What two configurations agree on, whatever their policies are. -/
structure Paired (c : Side → SessionConfiguration) : Prop where
  accepted : ∀ x, Accepted (c x)
  tcp : ∀ x, (c x).protocol = .tcp
  size : ∀ x, (c x.other).size.value = (c x).size.value
  roles : ∀ x, (c x).direction = .tx ↔ (c x.other).direction = .rx

namespace StreamPair

/-- The invariant of two sessions that nothing disturbs: neither fails, and a side finds the end of
its stream only once the other is gone and nothing is left on the way. -/
structure Calm (c : Side → SessionConfiguration) (p : StreamPair) : Prop where
  truthful : Truthful c p
  halfCloses : ∀ x, HalfCloses (p.session x)
  undisturbed : ∀ x, Undisturbed (p.session x)
  clear : ∀ x, (p.session x).failure = none
  ended : ∀ x, AtEnd (p.session x) → p.channel x = [] ∧ Gone (p.session x.other)

namespace Calm

variable {c : Side → SessionConfiguration} {flow : Flow} {p p' : StreamPair} {x : Side} {t : Nat}
  {e : Event}

theorem create (accepted : ∀ x, Accepted (c x)) (draws : Side → Nat → Nat) (now : Side → Nat) :
    Calm c (.create c draws now) where
  truthful := .create accepted draws now
  halfCloses := fun _ => .create _ _ _
  undisturbed := fun x => {
    timer := by simp [StreamPair.create, Session.create]
    signals := by simp [StreamPair.create, Session.create, Operation.initiate]
    receives := by simp [StreamPair.create, Session.create]
    sends := by simp [StreamPair.create, Session.create] }
  clear := fun _ => rfl
  ended := by simp [AtEnd, StreamPair.create, Session.create]

/-- A session that has not failed has counted or holds every byte that was delivered to it. -/
theorem heard (h : Calm c p) (x : Side) : ∃ delivered counted,
    Delivery (p.session x).configuration delivered counted (p.session x).receiveView ∧
      (p.session x.other).acceptedBySocket = delivered ++ p.channel x := by
  obtain ⟨delivered, surplus, counted, delivery, split, _, failed⟩ := h.truthful.heard x
  have none : surplus = [] := of_not_not fun some => failed some (h.clear x)
  exact ⟨delivered, counted, delivery, by rw [split, none, List.append_nil]⟩

/-- A side that has closed has found the end of its stream. -/
theorem atEnd_of_closed (h : Calm c p) (closed : (p.session x).isOpen = false) :
    AtEnd (p.session x) := by
  have done := Gone.done (h.truthful.sound x) closed
  simp only [Session.isDone, Bool.and_eq_true] at done
  exact .inr done.1

/-- No side is given a reason to abort, as long as a side that is gone has sent everything. -/
theorem no_cause (h : Calm c p) (paired : Paired c)
    (spent : ∀ x, Gone (p.session x) → Spent (p.session x)) {f : ErrorCode} {n : Nat}
    (cause : AbortCause (p.session x) f n) : n = 0 := by
  by_contra positive
  obtain ⟨delivered, counted, delivery, split⟩ := h.heard x
  have own := h.truthful.configuration x
  have peer := h.truthful.configuration x.other
  have sound := h.truthful.sound x
  have sound' := h.truthful.sound x.other
  have bounded := (c x).size.bounded
  have counter : (p.session x).receiveView.received.value = counted % 2 ^ 64 := delivery.counter
  have within := Spent.acceptedBySocket_le sound'
  rw [peer, paired.size x] at within
  have lengths := congrArg List.length split
  rw [List.length_append] at lengths
  rcases (h.undisturbed x).cause cause positive with
    ⟨slice, size, k, ready, mismatch⟩ | ⟨slice, size, ready⟩ | ⟨size, k, ready⟩
  · exact mismatch (h.truthful.matching paired.tcp ready)
  · -- The peer ends its stream after the whole of it.
    obtain ⟨none, gone⟩ := h.ended x (.inl ⟨_, ready⟩)
    have used := (sound.receive.slice ready).used
    have short := (sound.receive.slice ready).short
    rw [own] at used short
    have idle := delivery.idle (by simp [Session.receiveView, ready])
    rw [none, List.length_nil] at lengths
    rcases spent x.other gone with unused | full
    · exact used ((paired.roles x).mpr (peer ▸ unused))
    · rw [peer, paired.size x] at full
      omega
  · -- The probe for the end finds no data behind the whole stream.
    have ended := (sound.receive.probe ready).ended
    obtain ⟨length, _, nonempty⟩ := delivery.held _ k ready
    have nonempty := nonempty (own ▸ paired.tcp x)
    rw [own] at ended
    rcases ended with ⟨unused, _, _⟩ | ⟨_, full, _⟩
    · have silent := acceptedBySocket_unused sound' (peer ▸ (paired.roles x).mp unused)
      rw [split, List.append_eq_nil_iff] at silent
      simp only [silent.1, List.length_nil] at length
      omega
    · omega

theorem undisturbed_step (h : Calm c p)
    (spent : ∀ x, Gone (p.session x) → Spent (p.session x)) (permitted : Permitted flow p x e)
    {s : Session} (hs : (p.session x).step (t, e) = some s) : Undisturbed s := by
  have sound := h.truthful.sound x
  refine (h.undisturbed x).step sound hs ?_ ?_ ?_ ?_
  · rintro i rfl
    exact permitted
  · rintro n rfl
    exact permitted
  · rintro i f rfl
    by_contra other
    simp only [Permitted, if_neg other] at permitted
    exact permitted.2 (h.ended x.other (h.atEnd_of_closed permitted.1)).1
  · -- Only a send of a side that is gone could fail, and that side has nothing left to send.
    rintro i f rfl
    obtain ⟨call, pending⟩ := completeSend_pending sound hs
    have gone : Gone (p.session x) := by
      rcases permitted with shutdown | closed
      · exact .inl shutdown
      · have gone := (h.ended x.other (h.atEnd_of_closed closed)).2
        rwa [x.other_other] at gone
    exact (spent x gone).not_pending sound call pending

theorem step (h : Calm c p) (paired : Paired c)
    (spent : ∀ x, Gone (p.session x) → Spent (p.session x))
    (hp : p.step flow (x, t, e) = some p') : Calm c p' := by
  obtain ⟨permitted, hs, peer, channel, channel'⟩ := step_eq_some hp
  have sound := h.truthful.sound x
  have frame := Session.step_frame sound.tidy hs
  refine ⟨h.truthful.step paired.tcp (disturbedStep_of_step hp), Side.forall_of x ?_ ?_,
    Side.forall_of x ?_ ?_, Side.forall_of x ?_ ?_, Side.forall_of x ?_ ?_⟩
  · exact (h.halfCloses x).step sound hs
  · exact peer ▸ h.halfCloses x.other
  · exact h.undisturbed_step spent permitted hs
  · exact peer ▸ h.undisturbed x.other
  · have same : (p'.session x).report = (p.session x).report := by
      cases frame.reports with
      | complete completion event report => exact report
      | invoke handler event f n cause report =>
        rw [report, h.no_cause paired spent cause]
        rfl
    exact (congrArg Report.failure same).trans (h.clear x)
  · exact peer ▸ h.clear x.other
  · intro ended
    rw [peer]
    by_cases event : ∃ i, e = .complete (.received i (.error .eof))
    · obtain ⟨i, rfl⟩ := event
      simp only [Permitted, if_true] at permitted
      exact ⟨channel.trans permitted.1, permitted.2⟩
    · have tcp : (p.session x).configuration.protocol = .tcp :=
        h.truthful.configuration x ▸ paired.tcp x
      obtain ⟨none, gone⟩ := h.ended x (ended.of_step sound tcp hs fun i eq => event ⟨i, eq⟩)
      refine ⟨?_, gone⟩
      rw [channel, none]
      exact List.drop_nil
  · intro ended
    rw [peer] at ended
    obtain ⟨none, gone⟩ := h.ended x.other ended
    rw [x.other_other] at gone ⊢
    refine ⟨?_, gone.step sound (h.halfCloses x) hs⟩
    rw [channel', none, (spent x gone).push sound hs]
    rfl

/-- A side that has handled the end of its stream has found it. -/
theorem complete_of_eofs (h : Calm c p) (handled : (p.session x).ends.eofs ≠ 0) :
    (p.session x).isReceiveComplete = true := by
  rcases (h.halfCloses x).eofs with none | ⟨_, date, receives, waits⟩
  · exact absurd none handled
  have waits : (p.session x).receiveView.throttle.waits = [] := waits
  have receives : (p.session x).receiveView.receives = [] := receives
  cases (h.truthful.sound x).receive with
  | unstarted unstarted => exact absurd unstarted date
  | waiting start total r budget used short receives' waits' => simp [waits] at waits'
  | receiving start total slice r budget used short positive bounded receives' =>
    simp [receives] at receives'
  | probing r ended stream receives' => simp [receives] at receives'
  | complete ended receives' waits' complete => exact complete
  | stopped failed => exact absurd (h.clear x) failed

/-- A side that only receives is gone after it has counted everything. -/
theorem received_of_gone (h : Calm c p) (paired : Paired c) (rx : (c x).direction = .rx)
    (gone : Gone (p.session x)) :
    (c x).size.value ≤ (p.session x).statistics.receivedBytesCount.value := by
  have own := h.truthful.configuration x
  have sound := h.truthful.sound x
  have finished : (p.session x).receiveView.finishes ≠ 0 := by
    have complete : (p.session x).isReceiveComplete = true →
        (p.session x).receiveView.finishes ≠ 0 := fun complete => by
      rw [sound.receive.finished complete]
      decide
    rcases gone with shutdown | closed
    · have tcp : (p.session x).configuration.protocol = .tcp := own ▸ paired.tcp x
      rcases (h.halfCloses x).due_of_shutdown tcp shutdown with
        ⟨policy, _⟩ | ⟨policy, finished⟩ | ⟨policy, handled⟩
      · obtain ⟨_, _, _, excluded⟩ := accepted_iff.mp (paired.accepted x)
        exact absurd ⟨rx, own ▸ policy⟩ excluded
      · exact finished
      · exact complete (h.complete_of_eofs handled)
    · have done := Gone.done sound closed
      simp only [Session.isDone, Bool.and_eq_true] at done
      exact complete done.1
  have ended : ∀ now, ReceiveEnded (p.session x).configuration now (p.session x).receiveView →
      (c x).size.value ≤ (p.session x).statistics.receivedBytesCount.value := by
    rintro now (⟨unused, _⟩ | ⟨_, full, _⟩)
    · rw [own, rx] at unused
      cases unused
    · exact own ▸ full
  cases sound.receive with
  | unstarted date received receives waits incomplete unfinished =>
    exact absurd unfinished finished
  | waiting start total r budget used short receives waits result incomplete unfinished =>
    exact absurd unfinished finished
  | receiving start total slice r budget used short positive bounded receives waits fits live
      incomplete unfinished => exact absurd unfinished finished
  | probing r whole => exact ended _ whole
  | complete whole => exact ended _ whole
  | stopped failed => exact absurd (h.clear x) failed

/-- Where one side sends and the other receives, a side that is gone has sent everything, whatever
the two policies are. -/
theorem spent_of_gone (h : Calm c p) (paired : Paired c) (sends : (c x).direction = .tx)
    (y : Side) : Gone (p.session y) → Spent (p.session y) := by
  revert y
  refine Side.forall_of x (fun gone => ?_) fun _ => .inl ?_
  · have own := h.truthful.configuration x
    have sound := h.truthful.sound x
    have complete : (p.session x).isSendComplete = true → Spent (p.session x) := by
      intro complete
      have used : (p.session x).configuration.direction ≠ .rx := by simp [own, sends]
      refine .inr ?_
      rw [(Ceased.acceptedBySocket (.inr complete) sound used).2, pattern_length]
    rcases gone with shutdown | closed
    · have tcp : (p.session x).configuration.protocol = .tcp := own ▸ paired.tcp x
      rcases (h.halfCloses x).due_of_shutdown tcp shutdown with
        ⟨policy, finished⟩ | ⟨policy, _⟩ | ⟨policy, handled⟩
      · apply complete
        cases sound.send with
        | unused direction date sent accepted sends waits complete => exact complete
        | complete start budget used full sends waits complete => exact complete
        | _ => contradiction
      · obtain ⟨_, _, excluded, _⟩ := accepted_iff.mp (paired.accepted x)
        exact absurd ⟨sends, own ▸ policy⟩ excluded
      · -- The peer was gone before, and it had counted everything by then.
        have gone := (h.ended x (.inr (h.complete_of_eofs handled))).2
        have received := h.received_of_gone paired ((paired.roles x).mp sends) gone
        have counted := h.truthful.counted_le x.other
        have within := Spent.acceptedBySocket_le sound
        have size := paired.size x
        rw [x.other_other] at counted
        refine .inr ?_
        rw [own] at within ⊢
        omega
    · have done := Gone.done sound closed
      simp only [Session.isDone, Bool.and_eq_true] at done
      exact complete done.2
  · rw [h.truthful.configuration x.other]
    exact (paired.roles x).mp sends

end Calm

end StreamPair

end NetTester

import NetTester.Finished

namespace NetTester

/-- What the report says of one side of a session, and the number of times the side finished. -/
structure Record where
  duration : Nat
  finishes : Nat

/-- A side that finishes is stamped with the time since the start of the transfer. -/
inductive Stamping (s : Session) (v w : Record) : Prop
  | still (same : w = v)
  | finish (same : w = ⟨s.now - s.statistics.startDate.getD 0, v.finishes + 1⟩)

namespace Session

variable (s : Session)

def receiveRecord : Record := ⟨s.statistics.receiveDuration, s.calls.count .finishReceive⟩

def sendRecord : Record := ⟨s.statistics.sendDuration, s.calls.count .finishSend⟩

@[simp] theorem abort_receiveRecord (f : ErrorCode) :
    (s.abort f).receiveRecord = s.receiveRecord := by
  simp [receiveRecord, abort]

@[simp] theorem abort_sendRecord (f : ErrorCode) : (s.abort f).sendRecord = s.sendRecord := by
  simp [sendRecord, abort]

@[simp] theorem verify_receiveRecord (n : Nat) : (s.verify n).receiveRecord = s.receiveRecord :=
  verify_induction (P := fun u => u.receiveRecord = s.receiveRecord) rfl
    (fun u h => (abort_receiveRecord u _).trans h)

@[simp] theorem verify_sendRecord (n : Nat) : (s.verify n).sendRecord = s.sendRecord :=
  verify_induction (P := fun u => u.sendRecord = s.sendRecord) rfl
    (fun u h => (abort_sendRecord u _).trans h)

@[simp] theorem asyncReceive_receiveRecord (n : Nat) :
    (s.asyncReceive n).receiveRecord = s.receiveRecord := by
  rw [asyncReceive_eq, receiveSlice]
  split <;> rfl

@[simp] theorem asyncReceive_sendRecord (n : Nat) :
    (s.asyncReceive n).sendRecord = s.sendRecord := by
  rw [asyncReceive_eq, receiveSlice]
  split <;> rfl

@[simp] theorem asyncSend_receiveRecord (n : Nat) :
    (s.asyncSend n).receiveRecord = s.receiveRecord :=
  asyncSend_induction (P := fun u => u.receiveRecord = s.receiveRecord) n fun _ _ _ _ => rfl

@[simp] theorem asyncSend_sendRecord (n : Nat) : (s.asyncSend n).sendRecord = s.sendRecord :=
  asyncSend_induction (P := fun u => u.sendRecord = s.sendRecord) n fun _ _ _ _ => rfl

@[simp] theorem onReceiveComplete_receiveRecord :
    s.onReceiveComplete.receiveRecord = s.receiveRecord := by
  simp only [onReceiveComplete]
  split <;> simp [receiveRecord, onFinish, close]

@[simp] theorem onReceiveComplete_sendRecord :
    s.onReceiveComplete.sendRecord = s.sendRecord := by
  simp only [onReceiveComplete]
  split <;> simp [sendRecord, onFinish, close]

@[simp] theorem onSendComplete_receiveRecord :
    s.onSendComplete.receiveRecord = s.receiveRecord := by
  simp only [onSendComplete]
  split <;> simp [receiveRecord, onFinish, close]

@[simp] theorem onSendComplete_sendRecord : s.onSendComplete.sendRecord = s.sendRecord := by
  simp only [onSendComplete]
  split <;> simp [sendRecord, onFinish, close]

theorem finishReceive_receiveRecord : s.finishReceive.receiveRecord =
    ⟨s.now - s.statistics.startDate.getD 0, s.calls.count .finishReceive + 1⟩ := by
  unfold finishReceive
  split
  next =>
    simp only [TcpSession.finishReceive]
    split <;> simp [receiveRecord, startReceive, shutdownSend, stampReceive]
  next =>
    refine (onReceiveComplete_receiveRecord s.stampReceive).trans ?_
    simp [receiveRecord, stampReceive]

@[simp] theorem finishReceive_sendRecord : s.finishReceive.sendRecord = s.sendRecord := by
  unfold finishReceive
  split
  next =>
    simp only [TcpSession.finishReceive]
    split <;> simp [sendRecord, startReceive, shutdownSend, stampReceive]
  next =>
    refine (onReceiveComplete_sendRecord s.stampReceive).trans ?_
    simp [sendRecord, stampReceive]

/-- A side that has sent everything half-closes or not, by the policy, and is then complete. -/
theorem finishSend_cases : ∃ u, (u = s.stampSend ∨ u = s.stampSend.shutdownSend) ∧
    s.finishSend = u.onSendComplete := by
  unfold finishSend
  split
  next =>
    simp only [TcpSession.finishSend]
    split
    next => exact ⟨_, .inr rfl, rfl⟩
    next => exact ⟨_, .inl rfl, rfl⟩
  next => exact ⟨_, .inl rfl, rfl⟩

theorem finishSend_sendRecord : s.finishSend.sendRecord =
    ⟨s.now - s.statistics.startDate.getD 0, s.calls.count .finishSend + 1⟩ := by
  obtain ⟨u, cases, eq⟩ := finishSend_cases s
  rw [eq, onSendComplete_sendRecord]
  rcases cases with rfl | rfl <;> simp [sendRecord, shutdownSend, stampSend]

@[simp] theorem finishSend_receiveRecord : s.finishSend.receiveRecord = s.receiveRecord := by
  obtain ⟨u, cases, eq⟩ := finishSend_cases s
  rw [eq, onSendComplete_receiveRecord]
  rcases cases with rfl | rfl <;> simp [receiveRecord, shutdownSend, stampSend]

theorem onReceive_sendRecord (r : Except ErrorCode Nat) (n : Nat) :
    (s.onReceive r n).sendRecord = s.sendRecord := by
  simp only [onReceive]
  split
  next => rfl
  next => exact abort_sendRecord s _
  next => exact abort_sendRecord s _
  next k =>
    have same : ((s.verify k).countReceived k).sendRecord = s.sendRecord := verify_sendRecord s k
    split
    next => exact (asyncReceive_sendRecord _ _).trans same
    next => exact (finishReceive_sendRecord _).trans same

theorem onReceive_stamping (r : Except ErrorCode Nat) (n : Nat) :
    Stamping s s.receiveRecord (s.onReceive r n).receiveRecord := by
  simp only [onReceive]
  split
  next => exact .still rfl
  next => exact .still (abort_receiveRecord s _)
  next => exact .still (abort_receiveRecord s _)
  next k =>
    let u := (s.verify k).countReceived k
    have same : u.receiveRecord = s.receiveRecord := verify_receiveRecord s k
    have now : u.now = s.now := congrArg Setting.now (verify_setting s k)
    have date : u.statistics.startDate = s.statistics.startDate :=
      congrArg ReceiveView.startDate (verify_receiveView s k)
    have count : u.calls.count .finishReceive = s.calls.count .finishReceive :=
      congrArg Record.finishes same
    split
    next => exact .still ((asyncReceive_receiveRecord u _).trans same)
    next =>
      have finished := finishReceive_receiveRecord u
      rw [now, date, count] at finished
      exact .finish finished

theorem onEof_receiveRecord (r : Except ErrorCode Nat) :
    (TcpSession.onEof r s).receiveRecord = s.receiveRecord := by
  obtain ⟨u, policy, eq⟩ := TcpSession.onEof_cases r s
  have same : u.receiveRecord = s.receiveRecord := by
    rcases policy with rfl | ⟨-, rfl⟩ <;> simp [receiveRecord, shutdownSend, call]
  rw [eq]
  split
  next => exact (onReceiveComplete_receiveRecord u).trans same
  next => exact (abort_receiveRecord u _).trans same
  next => exact (abort_receiveRecord u _).trans same

theorem onEof_sendRecord (r : Except ErrorCode Nat) :
    (TcpSession.onEof r s).sendRecord = s.sendRecord := by
  obtain ⟨u, policy, eq⟩ := TcpSession.onEof_cases r s
  have same : u.sendRecord = s.sendRecord := by
    rcases policy with rfl | ⟨-, rfl⟩ <;> simp [sendRecord, shutdownSend, call]
  rw [eq]
  split
  next => exact (onReceiveComplete_sendRecord u).trans same
  next => exact (abort_sendRecord u _).trans same
  next => exact (abort_sendRecord u _).trans same

theorem onSend_receiveRecord (r : Except ErrorCode Nat) (c : SendCall) :
    (s.onSend r c).receiveRecord = s.receiveRecord := by
  simp only [onSend]
  split
  next => rfl
  next => exact abort_receiveRecord s _
  next n =>
    split
    next => exact asyncSend_receiveRecord (s.countSent c.offset n) _
    next => exact finishSend_receiveRecord (s.countSent c.offset n)

theorem onSend_stamping (r : Except ErrorCode Nat) (c : SendCall) :
    Stamping s s.sendRecord (s.onSend r c).sendRecord := by
  simp only [onSend]
  split
  next => exact .still rfl
  next => exact .still (abort_sendRecord s _)
  next n =>
    split
    next => exact .still (asyncSend_sendRecord (s.countSent c.offset n) _)
    next => exact .finish (finishSend_sendRecord (s.countSent c.offset n))

theorem startTransfer_receiveStamping {u : Session} (date : u.statistics.startDate = some s.now)
    (now : u.now = s.now) : Stamping u s.receiveRecord s.startTransfer.receiveRecord := by
  let stamped : Session := { s with statistics := { s.statistics with startDate := some s.now } }
  have sending : stamped.startReceiving.startSending.receiveRecord =
      stamped.startReceiving.receiveRecord := by
    unfold startSending
    split
    next => exact finishSend_receiveRecord _
    next => exact asyncSend_receiveRecord _ 0
  change Stamping u s.receiveRecord stamped.startReceiving.startSending.receiveRecord
  rw [sending]
  unfold startReceiving
  split
  next =>
    refine .finish ((finishReceive_receiveRecord stamped).trans ?_)
    rw [now, date]
    rfl
  next => exact .still (asyncReceive_receiveRecord _ 0)

theorem startTransfer_sendStamping {u : Session} (date : u.statistics.startDate = some s.now)
    (now : u.now = s.now) (idle : s.isSendComplete = true → s.sends = []) :
    Stamping u s.sendRecord s.startTransfer.sendRecord := by
  let stamped : Session := { s with statistics := { s.statistics with startDate := some s.now } }
  have receiving : stamped.startReceiving.sendRecord = s.sendRecord := by
    unfold startReceiving
    split
    next => exact finishReceive_sendRecord stamped
    next => exact asyncReceive_sendRecord _ 0
  have now' : stamped.startReceiving.now = s.now :=
    congrArg Setting.now (startReceiving_setting stamped)
  have date' : stamped.startReceiving.statistics.startDate = some s.now :=
    congrArg SendView.startDate (startReceiving_sendView stamped idle)
  have count : stamped.startReceiving.calls.count .finishSend = s.calls.count .finishSend :=
    congrArg Record.finishes receiving
  change Stamping u s.sendRecord stamped.startReceiving.startSending.sendRecord
  unfold startSending
  split
  next =>
    refine .finish ((finishSend_sendRecord _).trans ?_)
    rw [now', date', count, now, date]
    rfl
  next => exact .still ((asyncSend_sendRecord _ 0).trans receiving)

end Session

theorem Stamping.congr {s u : Session} {v w : Record} (h : Stamping s v w) (now : u.now = s.now)
    (date : u.statistics.startDate = s.statistics.startDate) : Stamping u v w := by
  cases h with
  | still same => exact .still same
  | finish same => exact .finish (by rw [now, date, same])

/-- Only the end of a side writes its duration, the time from the start to the instant of the
event. -/
theorem Session.step_stamping {s s' : Session} {t : Nat} {e : Event} (tidy : Tidy s)
    (h : s.step (t, e) = some s') : Stamping s' s.receiveRecord s'.receiveRecord ∧
      Stamping s' s.sendRecord s'.sendRecord := by
  have now := (step_frame tidy h).now
  cases step_cases tidy h with
  | connect i failure after ready =>
    obtain ⟨_, sends, _, incomplete⟩ :=
      tidy.unstarted (tidy.opens (Operation.ne_nil_of_dequeue ready))
    let u : Session := { s with now := t, opens := after }
    have date : u.startTransfer.statistics.startDate = some t :=
      startTransfer_date u sends incomplete
    exact ⟨startTransfer_receiveStamping u date now,
      startTransfer_sendStamping u date now tidy.sendComplete⟩
  | startTimerAndTransfer i duration posted =>
    obtain ⟨_, sends, _, incomplete⟩ := tidy.unstarted (tidy.posts (List.mem_of_getElem? posted))
    let u : Session := { s with
      now := t
      posts := s.posts.eraseIdx i
      timeoutTimer := Operation.settle (some .operationAborted) s.timeoutTimer ++
        [Operation.initiate duration] }
    have date : u.startTransfer.statistics.startDate = some t :=
      startTransfer_date u sends incomplete
    exact ⟨startTransfer_receiveStamping u date now,
      startTransfer_sendStamping u date now tidy.sendComplete⟩
  | onReceive slice size r =>
    let u : Session := { s with now := t, receives := [] }
    have date := congrArg SendView.startDate (onReceive_sendView u r slice tidy.sendComplete)
    exact ⟨(onReceive_stamping u r slice).congr now date,
      .still (onReceive_sendRecord u r slice)⟩
  | onEof size r => exact ⟨.still (onEof_receiveRecord _ r), .still (onEof_sendRecord _ r)⟩
  | onSend c r =>
    let u : Session := { s with now := t, sends := [] }
    have date := congrArg ReceiveView.startDate (onSend_receiveView u r c tidy.receiveComplete)
    exact ⟨.still (onSend_receiveRecord u r c), (onSend_stamping u r c).congr now date⟩
  | receiveSlice =>
    exact ⟨.still (asyncReceive_receiveRecord _ _), .still (asyncReceive_sendRecord _ _)⟩
  | sendSlice => exact ⟨.still (asyncSend_receiveRecord _ _), .still (asyncSend_sendRecord _ _)⟩
  | timeout i x after =>
    let u : Session := { s with now := t, timeoutTimer := after }
    exact ⟨.still (abort_receiveRecord u _), .still (abort_sendRecord u _)⟩
  | signal i n after =>
    let u : Session := { s with now := t, signals := after }
    exact ⟨.still (abort_receiveRecord u _), .still (abort_sendRecord u _)⟩
  | opened | received | receiveFails | sent | sendFails | receiveExpires | sendExpires | timedOut
  | signalled | startTimer | receiveCancelled | sendCancelled | timeoutCancelled
  | signalCancelled => exact ⟨.still rfl, .still rfl⟩

section

variable {s s' : Session} {t : Nat} {e : Event}

/-- The start of the transfer is stamped once, and not in the future. -/
theorem Sound.step_startDate (h : Sound s) (hs : s.step (t, e) = some s') :
    s'.statistics.startDate = s.statistics.startDate ∨
      s.statistics.startDate = none ∧ s'.statistics.startDate = some t := by
  cases (Session.step_frame h.tidy hs).opening with
  | still opens posts date => exact .inl date
  | opened i failure completes posts date => exact .inl date
  | connect i failure after ready opens posts date =>
    exact .inr ⟨h.tidy.opens (Operation.ne_nil_of_dequeue ready), date⟩
  | timer i posted opens posts date done => exact .inl date
  | timerAndTransfer i posted opens posts date =>
    exact .inr ⟨h.tidy.posts (List.mem_of_getElem? posted), date⟩

/-- A receiving side that has finished counts no further byte and does not finish again. -/
theorem Sound.receive_final (h : Sound s) (hs : s.step (t, e) = some s')
    (finished : s.receiveRecord.finishes ≠ 0) :
    s'.receiveRecord.finishes = s.receiveRecord.finishes ∧
      s'.statistics.receivedBytesCount = s.statistics.receivedBytesCount := by
  have kept : ∀ w : ReceiveView, s'.receiveView = w → w.finishes = s.receiveView.finishes →
      w.received = s.receiveView.received →
      s'.receiveRecord.finishes = s.receiveRecord.finishes ∧
        s'.statistics.receivedBytesCount = s.statistics.receivedBytesCount := by
    rintro w rfl finishes received
    exact ⟨finishes, received⟩
  cases Session.step_receiveMove h.tidy hs with
  | still view => exact kept _ view rfl rfl
  | start unstarted => exact absurd (h.receive.idle unstarted).unfinished finished
  | startUnused unstarted => exact absurd (h.receive.idle unstarted).unfinished finished
  | expire x waits due view => exact kept _ view rfl rfl
  | slice x waits => exact absurd (h.receive.wait waits).unfinished finished
  | cancelled x f waits =>
    have result := (h.receive.wait waits).result
    simp at result
  | fill i data c event pending fits stream view => exact kept _ view rfl rfl
  | fail i f c event pending failed view => exact kept _ view rfl rfl
  | resume slice size n ready => exact absurd (h.receive.slice ready).unfinished finished
  | finish slice size n ready => exact absurd (h.receive.slice ready).unfinished finished
  | aborted c ready => exact absurd (h.receive_system ready) (by decide)
  | stop c r f ready bad view => exact kept _ view rfl rfl
  | eof size ready view => exact kept _ view rfl rfl

theorem Sound.send_final (h : Sound s) (hs : s.step (t, e) = some s')
    (finished : s.sendRecord.finishes ≠ 0) :
    s'.sendRecord.finishes = s.sendRecord.finishes ∧
      s'.statistics.sentBytesCount = s.statistics.sentBytesCount := by
  have kept : ∀ w : SendView, s'.sendView = w → w.finishes = s.sendView.finishes →
      w.sent = s.sendView.sent → s'.sendRecord.finishes = s.sendRecord.finishes ∧
        s'.statistics.sentBytesCount = s.statistics.sentBytesCount := by
    rintro w rfl finishes sent
    exact ⟨finishes, sent⟩
  cases Session.step_sendMove h.tidy hs with
  | still view => exact kept _ view rfl rfl
  | start unstarted => exact absurd (h.send.idle unstarted).unfinished finished
  | startUnused unstarted => exact absurd (h.send.idle unstarted).unfinished finished
  | expire x waits due view => exact kept _ view rfl rfl
  | slice x waits => exact absurd (h.send.wait waits).unfinished finished
  | cancelled x f waits =>
    have result := (h.send.wait waits).result
    simp at result
  | fill i n c event pending fits view => exact kept _ view rfl rfl
  | fail i f c event pending failed view => exact kept _ view rfl rfl
  | resume c n ready => exact absurd (h.send.slice ready).unfinished finished
  | finish c n ready => exact absurd (h.send.slice ready).unfinished finished
  | aborted c ready => exact absurd (h.send_system ready) (by decide)
  | stop c f ready view => exact kept _ view rfl rfl

/-- A stamp is written once: a record that is final stays. -/
theorem Stamping.final {v w : Record} (h : Stamping s v w) (final : w.finishes = v.finishes) :
    w = v := by
  cases h with
  | still same => exact same
  | finish same => simp [same] at final

end

/-- A side finished once in a run, and the record it leaves is that of the instant at which it did:
the time since the start of the transfer, and the bytes counted by then. -/
def FinishedAt (start : Session) (events : List (Nat × Event)) (record : Session → Record)
    (bytes : Session → Size) (s : Session) : Prop :=
  ∃ before t e after u u' begun, events = before ++ (t, e) :: after ∧
    Machine.run Session.step start before = some u ∧ u.step (t, e) = some u' ∧
    (record u).finishes = 0 ∧ s.statistics.startDate = some begun ∧ begun ≤ t ∧
    record u' = ⟨t - begun, 1⟩ ∧ record s = record u' ∧ bytes s = bytes u'

/-- The run lemma of both sides, from what one step does to a record. -/
theorem finished_at {c : SessionConfiguration} (accepted : Accepted c) {draws : Nat → Nat}
    {now : Nat} (record : Session → Record) (bytes : Session → Size)
    (empty : record (.create c draws now) = ⟨0, 0⟩)
    (stamping : ∀ s t e s', Sound s → s.step (t, e) = some s' →
      Stamping s' (record s) (record s'))
    (final : ∀ s t e s', Sound s → s.step (t, e) = some s' → (record s).finishes ≠ 0 →
      (record s').finishes = (record s).finishes ∧ bytes s' = bytes s)
    (started : ∀ s, Sound s → (record s).finishes ≠ 0 → s.statistics.startDate ≠ none)
    {events : List (Nat × Event)} {s : Session} (reach : Session.Reaches c draws now events s) :
    record s = ⟨0, 0⟩ ∨ FinishedAt (.create c draws now) events record bytes s := by
  suffices all : (∀ begun, s.statistics.startDate = some begun → begun ≤ s.now) ∧
      (record s = ⟨0, 0⟩ ∨ FinishedAt (.create c draws now) events record bytes s) from all.2
  refine Machine.run_induction (fun events s =>
    (∀ begun, s.statistics.startDate = some begun → begun ≤ s.now) ∧
      (record s = ⟨0, 0⟩ ∨ FinishedAt (.create c draws now) events record bytes s)) ?_ ?_ reach
  · exact ⟨by simp [Session.create], .inl empty⟩
  rintro events s ⟨t, e⟩ s' reach ⟨past, holds⟩ hs
  obtain ⟨sound, _, _⟩ := Sound.of_reaches accepted reach
  obtain ⟨order, _, _⟩ := Session.step_eq_some hs
  have now := (Session.step_frame sound.tidy hs).now
  have past' : ∀ begun, s'.statistics.startDate = some begun → begun ≤ s'.now := by
    intro begun date
    rw [now]
    rcases sound.step_startDate hs with same | ⟨_, stamped⟩
    · exact (past begun (same ▸ date)).trans order
    · cases stamped.symm.trans date
      exact Nat.le_refl t
  refine ⟨past', ?_⟩
  have stamp := stamping s t e s' sound hs
  rcases holds with none | ⟨before, t₀, e₀, after, u, u', begun, rfl, reach', hu, unfinished, date,
    past₀, first, same, counted⟩
  · cases stamp with
    | still same => exact .inl (same.trans none)
    | finish same =>
      have finished : (record s').finishes ≠ 0 := by simp [same]
      obtain ⟨begun, date⟩ := Option.ne_none_iff_exists'.mp (started s' (sound.step hs) finished)
      refine .inr ⟨events, t, e, [], s, s', begun, rfl, reach, hs, by simp [none], date,
        now ▸ past' begun date, ?_, rfl, rfl⟩
      rw [same, now, date, none]
      rfl
  · have finished : (record s).finishes ≠ 0 := by simp [same, first]
    obtain ⟨again, counted'⟩ := final s t e s' sound hs finished
    have date' : s'.statistics.startDate = some begun := by
      rcases sound.step_startDate hs with kept | ⟨unstarted, _⟩
      · exact kept.trans date
      · simp [unstarted] at date
    exact .inr ⟨before, t₀, e₀, after ++ [(t, e)], u, u', begun, by simp, reach', hu, unfinished,
      date', past₀, first, (stamp.final again).trans same, counted'.trans counted⟩

/-- What `finalize` prints of a side is that of the instant at which the side finished, however long
the session goes on, and zero for a side that has not finished. -/
theorem statistics_final {c : SessionConfiguration} (accepted : Accepted c) {draws : Nat → Nat}
    {now : Nat} {events : List (Nat × Event)} {s : Session}
    (reach : Session.Reaches c draws now events s) :
    (s.receiveRecord = ⟨0, 0⟩ ∨ FinishedAt (.create c draws now) events Session.receiveRecord
      (fun s => s.statistics.receivedBytesCount) s) ∧
    (s.sendRecord = ⟨0, 0⟩ ∨ FinishedAt (.create c draws now) events Session.sendRecord
      (fun s => s.statistics.sentBytesCount) s) := by
  refine ⟨finished_at accepted Session.receiveRecord _ rfl ?_ ?_ ?_ reach,
    finished_at accepted Session.sendRecord _ rfl ?_ ?_ ?_ reach⟩
  · exact fun s t e s' sound hs => (Session.step_stamping sound.tidy hs).1
  · exact fun s t e s' sound hs => sound.receive_final hs
  · exact fun s sound finished date => finished (sound.receive.idle date).unfinished
  · exact fun s t e s' sound hs => (Session.step_stamping sound.tidy hs).2
  · exact fun s t e s' sound hs => sound.send_final hs
  · exact fun s sound finished date => finished (sound.send.idle date).unfinished

theorem statistics_final_lastSend : ∃ s, Session.Reaches
    { defaultConfiguration "127.0.0.1:1234" ⟨1, .iec, by decide⟩ with
      protocol := .udp, direction := .tx }
    (fun _ => 0) 0 (lastSend ++ [(5, .invoke (.onSend 0)), (9, .invoke (.onTimeout 0))]) s ∧
      s.statistics.sendDuration = 5 ∧ FinishedAt (.create
        { defaultConfiguration "127.0.0.1:1234" ⟨1, .iec, by decide⟩ with
          protocol := .udp, direction := .tx } (fun _ => 0) 0)
        (lastSend ++ [(5, .invoke (.onSend 0)), (9, .invoke (.onTimeout 0))]) Session.sendRecord
        (fun s => s.statistics.sentBytesCount) s := by
  refine Machine.exists_run (fun s => s.statistics.sendDuration) (b := 5) (by decide +kernel) ?_
  intro s reach duration
  refine ⟨duration, ?_⟩
  rcases (statistics_final (accepted_iff.mpr (by decide)) reach).2 with none | finished
  · have zero : s.statistics.sendDuration = 0 := congrArg Record.duration none
    simp [duration] at zero
  · exact finished

end NetTester

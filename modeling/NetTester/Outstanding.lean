import NetTester.Finished

namespace NetTester

namespace Session

/-- What is outstanding of the opening of a session: an operation that will start the transfer. -/
def openOperations (s : Session) : Nat := s.opens.length + s.posts.count .startTimerAndTransfer

/-- What is outstanding of the receiving side, on its socket or on its throttle. -/
def receiveOperations (s : Session) : Nat := s.receives.length + s.receiveThrottle.waits.length

/-- What is outstanding of the sending side, on its socket or on its throttle. -/
def sendOperations (s : Session) : Nat := s.sends.length + s.sendThrottle.waits.length

end Session

/-- A receive chain that runs has one operation outstanding until it is complete. -/
theorem ReceiveChain.outstanding {c : SessionConfiguration} {now : Nat} {failed : Prop}
    {v : ReceiveView} (h : ReceiveChain c now failed v) (clear : ¬failed)
    (started : v.startDate ≠ none) :
    v.receives.length + v.throttle.waits.length = if v.isComplete then 0 else 1 := by
  cases h with
  | unstarted date => exact absurd date started
  | waiting start total r budget used short receives waits result incomplete =>
    simp [receives, waits, incomplete]
  | receiving start total slice r budget used short positive bounded receives waits fits live
      incomplete =>
    simp [receives, waits, incomplete]
  | probing r ended stream receives waits live incomplete => simp [receives, waits, incomplete]
  | complete ended receives waits complete => simp [receives, waits, complete]
  | stopped failure => exact absurd failure clear

/-- So has a send chain, as long as no assertion has failed. -/
theorem SendChain.outstanding {c : SessionConfiguration} {draws : Nat → Nat} {now : Nat}
    {failed : Prop} {v : SendView} (h : SendChain c draws now failed v) (clear : ¬failed)
    (alive : v.assertionFailed = false) (started : v.startDate ≠ none) :
    v.sends.length + v.throttle.waits.length = if v.isComplete then 0 else 1 := by
  cases h with
  | unstarted date => exact absurd date started
  | unused direction date sent accepted sends waits complete => simp [sends, waits, complete]
  | waiting start r budget used short sends waits result incomplete =>
    simp [sends, waits, incomplete]
  | sending start call r budget offer used sends waits fits live incomplete =>
    simp [sends, waits, incomplete]
  | complete start budget used full sends waits complete => simp [sends, waits, complete]
  | stopped start remaining cause => simp_all

/-- Until the transfer starts, one operation is outstanding that will start it. -/
theorem Opening.outstanding {s : Session} (h : Opening s) :
    s.openOperations = if s.statistics.startDate = none then 1 else 0 := by
  unfold Session.openOperations
  cases h with
  | connecting tcp date r opens posts =>
    rcases posts with posts | posts <;> simp [opens, posts, date]
  | connected tcp date opens posts =>
    rcases posts with posts | posts <;> simp [opens, posts, date]
  | posted udp date opens posts => simp [opens, posts, date]
  | started udp date opens posts => simp [opens, posts, date]

/-- A session without a failure loses no continuation and doubles none: one operation stands for its
opening until the transfer starts, and from then on one for each side that is not complete. -/
theorem one_outstanding {c : SessionConfiguration} (accepted : Accepted c) {draws : Nat → Nat}
    {now : Nat} {events : List (Nat × Event)} {s : Session}
    (reach : Session.Reaches c draws now events s) (clear : s.failure = none)
    (alive : s.assertionFailed = false) :
    s.openOperations = (if s.statistics.startDate = none then 1 else 0) ∧
    s.receiveOperations =
      (if s.statistics.startDate = none ∨ s.isReceiveComplete = true then 0 else 1) ∧
    s.sendOperations =
      (if s.statistics.startDate = none ∨ s.isSendComplete = true then 0 else 1) := by
  obtain ⟨sound, _, _⟩ := Sound.of_reaches accepted reach
  refine ⟨sound.opening.outstanding, ?_, ?_⟩
  · by_cases date : s.statistics.startDate = none
    · have idle := sound.receive.idle date
      have receives : s.receives = [] := idle.receives
      have waits : s.receiveThrottle.waits = [] := idle.waits
      simp [Session.receiveOperations, date, receives, waits]
    · simp only [date, false_or]
      exact sound.receive.outstanding (by simp [clear]) date
  · by_cases date : s.statistics.startDate = none
    · have idle := sound.send.idle date
      have sends : s.sends = [] := idle.sends
      have waits : s.sendThrottle.waits = [] := idle.waits
      simp [Session.sendOperations, date, sends, waits]
    · simp only [date, false_or]
      exact sound.send.outstanding (by simp [clear]) alive date

theorem one_outstanding_lastSend : ∃ s, Session.Reaches
    { defaultConfiguration "127.0.0.1:1234" ⟨1, .iec, by decide⟩ with
      protocol := .udp, direction := .tx }
    (fun _ => 0) 0 lastSend s ∧ s.sendOperations = 1 := by
  refine Machine.exists_run (fun s => (s.statistics.startDate, s.failure, s.assertionFailed,
    s.isSendComplete)) (b := (some 0, none, false, false)) rfl ?_
  intro s reach observed
  simp only [Prod.mk.injEq] at observed
  obtain ⟨date, clear, alive, incomplete⟩ := observed
  have one := (one_outstanding (accepted_iff.mpr (by decide)) reach clear alive).2.2
  rw [one, date, incomplete]
  rfl

end NetTester

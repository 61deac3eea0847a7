import NetTester.Finished

namespace NetTester

/-- A thread runs no handler once the exit is requested. -/
def Polls (s : Session) (event : Nat × Event) : Prop :=
  match event.2 with
  | .complete _ => True
  | .invoke _ => s.exitRequested = false

instance (s : Session) : ∀ event, Decidable (Polls s event)
  | (_, .complete _) => .isTrue trivial
  | (_, .invoke _) => inferInstanceAs (Decidable (s.exitRequested = false))

/-- The handler of a connect or an accept that failed takes a running session to another state. -/
structure FailedConnect (c : SessionConfiguration) (e : ErrorCode) (s s' : Session) : Prop where
  reached : ∃ draws now before, Session.Reaches c draws now before s
  running : s.exitRequested = false
  handled : ∃ t i opens, Operation.dequeue s.opens i = some ((), some e, opens) ∧
    s.step (t, .invoke (.onConnect i)) = some s'

/-- From a failed connect on, in whatever order things complete, nothing is transferred, and the
session ends with the failure of the connect. -/
def ConnectFailureEnds (c : SessionConfiguration) (e : ErrorCode) : Prop :=
  ∀ s s' events s'', FailedConnect c e s s' → Machine.Along Session.step Polls s' events →
    Machine.run Session.step s' events = some s'' →
      s''.receives = [] ∧ s''.sends = [] ∧
      (∀ sent received, Call.shutdownSend sent received ∉ s''.calls) ∧
      (s''.exitRequested = true ∨ s''.isIdle = true → s''.finalize = some e)

namespace Session

variable {c : SessionConfiguration} {e : ErrorCode} {s s' : Session} {i t : Nat}

/-- What the handler does is the same for every result of the operation. -/
theorem step_onConnect {failure : Option ErrorCode}
    {opens : List (Operation Unit (Option ErrorCode))} (alive : s.assertionFailed = false)
    (later : s.now ≤ t) (h : Operation.dequeue s.opens i = some ((), failure, opens)) :
    s.step (t, .invoke (.onConnect i)) =
      some { s with now := t, opens := opens }.startTransfer := by
  rw [step, if_pos ⟨later, alive⟩]
  simp only [dispatch, invoke, h]
  rfl

/-- A session that only sends asks for the end of the stream at once. -/
theorem startTransfer_tx (tcp : s.configuration.protocol = .tcp)
    (tx : s.configuration.direction = .tx) : s.startTransfer.receives ≠ [] := by
  let stamped : Session := { s with statistics := { s.statistics with startDate := some s.now } }
  have probe : stamped.startReceiving.receives ≠ [] := by
    rw [startReceiving, if_pos tx]
    simp only [finishReceive, stamped, tcp, TcpSession.finishReceive, startReceive]
    simp
  have setting := startReceiving_setting stamped
  have sending : stamped.startReceiving.configuration.direction ≠ .rx := by
    rw [show stamped.startReceiving.configuration = s.configuration from
      congrArg Setting.configuration setting, tx]
    decide
  have kept : s.startTransfer.receives = stamped.startReceiving.receives := by
    apply Eq.trans (congrArg Session.receives (if_neg sending))
    exact congrArg ReceiveView.receives (asyncSend_receiveView _ 0)
  rwa [kept]

/-- The session whose connect has just been handled, at the instant it was created. -/
def connected (c : SessionConfiguration) : Session :=
  { create c (fun _ => 0) 0 with opens := [] }.startTransfer

theorem failedConnect_connected (tcp : c.protocol = .tcp) (e : ErrorCode) :
    ∃ s, FailedConnect c e s (connected c) := by
  have opened : Reaches c (fun _ => 0) 0 [(0, .complete (.opened 0 (some e)))]
      { create c (fun _ => 0) 0 with opens := [⟨(), some (some e)⟩] } := by
    simp [Reaches, Machine.run, step, dispatch, complete, create, tcp, Operation.complete,
      Operation.initiate]
  refine ⟨_, ⟨_, _, _, opened⟩, rfl, 0, 0, [], rfl, ?_⟩
  exact step_onConnect rfl (Nat.le_refl 0) rfl

/-- A signal still reaches the session, and its failure is what the session ends with. -/
theorem connected_signalled (c : SessionConfiguration) (n : Signal) :
    ∃ s, Machine.Along step Polls (connected c)
        [(0, .complete (.signalled n)), (0, .invoke (.onSignal 0))] ∧
      Machine.run step (connected c)
        [(0, .complete (.signalled n)), (0, .invoke (.onSignal 0))] = some s ∧
      s.exitRequested = true ∧ s.finalize = some (.tester n.error) := by
  let fresh : Session := { create c (fun _ => 0) 0 with opens := [] }
  have ending : (connected c).endView = fresh.endView := startTransfer_endView fresh rfl rfl rfl
  have signals : (connected c).signals = [Operation.initiate ()] := congrArg EndView.signals ending
  have now : (connected c).now = 0 := congrArg Setting.now (startTransfer_setting fresh)
  have running : (connected c).exitRequested = false :=
    congrArg Report.exitRequested (startTransfer_report fresh)
  have alive : (connected c).assertionFailed = false := by
    have view := congrArg SendView.assertionFailed (startTransfer_sendView fresh rfl rfl)
    apply view.trans
    split <;> rfl
  generalize connected c = s at signals now running alive
  have queued : s.step (0, .complete (.signalled n)) =
      some { s with now := 0, signals := [⟨(), some (.ok n)⟩] } := by
    rw [step, if_pos ⟨Nat.le_of_eq now, alive⟩]
    simp only [dispatch, complete, signals]
    rfl
  have handled : { s with now := 0, signals := [⟨(), some (.ok n)⟩] }.step
        (0, .invoke (.onSignal 0)) =
      some ({ s with now := 0, signals := [] }.abort (.tester n.error)) := by
    rw [step, if_pos ⟨Nat.le_refl 0, alive⟩]
    cases n <;> rfl
  refine ⟨{ s with now := 0, signals := [] }.abort (.tester n.error),
    ⟨trivial, fun u hu => ⟨?_, fun _ _ => trivial⟩⟩, ?_, rfl, rfl⟩
  · cases Option.some.inj (queued.symm.trans hu)
    exact running
  · exact Machine.run_cons_iff.mpr ⟨_, queued, Machine.run_cons_iff.mpr ⟨_, handled, rfl⟩⟩

end Session

/-- Where only one side sends, it begins to receive in the very handler of the failure. -/
theorem FailedConnect.receives {c : SessionConfiguration} {e : ErrorCode} {s s' : Session}
    (accepted : Accepted c) (tcp : c.protocol = .tcp) (tx : c.direction = .tx)
    (failed : FailedConnect c e s s') : s'.receives ≠ [] := by
  obtain ⟨draws, now, before, reach⟩ := failed.reached
  obtain ⟨_, rfl, _⟩ := Sound.of_reaches accepted reach
  obtain ⟨t, i, opens, queued, hs⟩ := failed.handled
  obtain ⟨later, alive, _⟩ := Session.step_eq_some hs
  rw [Session.step_onConnect alive later queued] at hs
  rw [← Option.some.inj hs]
  exact Session.startTransfer_tx tcp tx

/-- The failure is not looked at, so the session goes on and ends with another one. -/
theorem not_connectFailureEnds (c : SessionConfiguration) (tcp : c.protocol = .tcp)
    (e : ErrorCode) : ¬ConnectFailureEnds c e := by
  intro ends
  obtain ⟨n, other⟩ : ∃ n : Signal, ErrorCode.tester n.error ≠ e := by
    by_cases same : e = .tester .userInterrupt
    · exact ⟨.sigterm, by simp [same, Signal.error]⟩
    · exact ⟨.sigint, fun h => same h.symm⟩
  obtain ⟨s, failed⟩ := Session.failedConnect_connected tcp e
  obtain ⟨s', polls, run, exit, final⟩ := Session.connected_signalled c n
  have same := (ends _ _ _ _ failed polls run).2.2.2 (.inl exit)
  rw [final] at same
  exact other (Option.some.inj same)

theorem not_connectFailureEnds_default :
    ¬ConnectFailureEnds (defaultConfiguration "127.0.0.1:1234" ⟨1, .iec, by decide⟩)
      (.system 111) :=
  not_connectFailureEnds _ rfl _

/-- A connection that is refused, and the transfer that goes on over it: the session ends with the
failure of its first send. -/
theorem connection_refused :
    ¬ConnectFailureEnds (defaultConfiguration "127.0.0.1:1234" ⟨1, .iec, by decide⟩)
      (.system 111) := by
  intro ends
  let c := defaultConfiguration "127.0.0.1:1234" ⟨1, .iec, by decide⟩
  obtain ⟨s, failed⟩ := Session.failedConnect_connected (c := c) rfl (.system 111)
  let events : List (Nat × Event) :=
    [(0, .complete (.sendSlice 0)), (0, .invoke (.sendThrottle 0)),
      (0, .complete (.sent 0 (.error (.system 32)))), (0, .invoke (.onSend 0))]
  obtain ⟨s', run, exit, final⟩ : ∃ s', Machine.run Session.step (Session.connected c) events =
      some s' ∧ s'.exitRequested = true ∧ s'.finalize = some (.system 32) := by
    refine Machine.exists_run (fun s => (s.exitRequested, s.finalize))
      (b := (true, some (.system 32))) (by decide +kernel) ?_
    intro s _ observed
    simpa only [Prod.mk.injEq] using observed
  have polls : Machine.Along Session.step Polls (Session.connected c) events := by decide +kernel
  have same := (ends _ _ _ _ failed polls run).2.2.2 (.inl exit)
  rw [final] at same
  exact absurd same (by decide)

end NetTester

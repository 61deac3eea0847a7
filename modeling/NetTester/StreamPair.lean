import Mathlib.Logic.Function.Basic
import NetTester.PeerStream
import NetTester.Wire

namespace NetTester

inductive Side
  | left
  | right
deriving DecidableEq

def Side.other : Side → Side
  | .left => .right
  | .right => .left

@[simp] theorem Side.other_ne (x : Side) : x.other ≠ x := by cases x <;> decide

@[simp] theorem Side.other_other (x : Side) : x.other.other = x := by cases x <;> rfl

theorem Side.eq_or_other (x y : Side) : y = x ∨ y = x.other := by
  cases x <;> cases y <;> decide

/-- How many more bytes a stream takes while some are on their way: an empty one takes a byte. -/
structure Flow where
  takes : Nat → Nat → Bool
  empty : takes 0 1 = true

/-- Two stream sessions that are connected, with the bytes on their way to each. -/
structure StreamPair where
  session : Side → Session
  channel : Side → List UInt8

namespace StreamPair

/-- What the connection lets happen to a side. It opens, it delivers the bytes of the peer in order
and their end once the peer has half-closed or closed, and it fails only a session that reads from
or writes to a peer that is gone, or that writes after its own half-close. Neither timers nor
signals disturb the sessions. -/
def Permitted (flow : Flow) (p : StreamPair) (x : Side) : Event → Prop
  | .complete (.opened _ failure) => failure = none
  | .complete (.received _ (.ok data)) => data <+: p.channel x
  | .complete (.received _ (.error failure)) =>
    if failure = .eof then
      p.channel x = [] ∧
        ((p.session x.other).isShutdown = true ∨ (p.session x.other).isOpen = false)
    else
      (p.session x.other).isOpen = false ∧ p.channel x.other ≠ []
  | .complete (.sent _ (.ok n)) =>
    n ≠ 0 ∧ (p.session x).isShutdown = false ∧ flow.takes (p.channel x.other).length n = true
  | .complete (.sent _ (.error _)) =>
    (p.session x).isShutdown = true ∨ (p.session x.other).isOpen = false
  | .complete (.timedOut _) => False
  | .complete (.signalled _) => False
  | _ => True

instance (flow : Flow) (p : StreamPair) (x : Side) : DecidablePred (Permitted flow p x)
  | .complete (.opened _ failure) => inferInstanceAs (Decidable (failure = none))
  | .complete (.received _ (.ok data)) => inferInstanceAs (Decidable (data <+: p.channel x))
  | .complete (.received _ (.error failure)) =>
    if eof : failure = .eof then
      decidable_of_iff (p.channel x = [] ∧
        ((p.session x.other).isShutdown = true ∨ (p.session x.other).isOpen = false))
        (by simp [Permitted, eof])
    else
      decidable_of_iff ((p.session x.other).isOpen = false ∧ p.channel x.other ≠ [])
        (by simp [Permitted, eof])
  | .complete (.sent _ (.ok n)) => inferInstanceAs (Decidable (n ≠ 0 ∧
      (p.session x).isShutdown = false ∧ flow.takes (p.channel x.other).length n = true))
  | .complete (.sent _ (.error _)) => inferInstanceAs (Decidable
      ((p.session x).isShutdown = true ∨ (p.session x.other).isOpen = false))
  | .complete (.timedOut _) => .isFalse id
  | .complete (.signalled _) => .isFalse id
  | .complete (.receiveSlice _) => .isTrue trivial
  | .complete (.sendSlice _) => .isTrue trivial
  | .invoke _ => .isTrue trivial

/-- The bytes that an event takes off the stream to its session. -/
def pulled : Event → Nat
  | .complete (.received _ (.ok data)) => data.length
  | _ => 0

theorem pulled_eq_zero {e : Event} (other : ∀ i data, e ≠ .complete (.received i (.ok data))) :
    pulled e = 0 := by
  unfold pulled
  split
  next i data => exact absurd rfl (other i data)
  next => rfl

def step (flow : Flow) (p : StreamPair) (event : Side × Nat × Event) : Option StreamPair :=
  let (x, t, e) := event
  if Permitted flow p x e then
    ((p.session x).step (t, e)).map fun s =>
      { session := Function.update p.session x s
        channel := fun y =>
          if y = x then (p.channel y).drop (pulled e) else p.channel y ++ (p.session x).push e }
  else
    none

def create (c : Side → SessionConfiguration) (draws : Side → Nat → Nat) (now : Side → Nat) :
    StreamPair :=
  ⟨fun x => .create (c x) (draws x) (now x), fun _ => []⟩

end StreamPair

/-- The configurations that are to work together: both send and receive, or one does each. -/
inductive Compatible (c d : SessionConfiguration) : Prop
  | both (left : c.direction = .both) (right : d.direction = .both)
      (leftPolicy : c.shutdownPolicy = .sendComplete)
      (rightPolicy : d.shutdownPolicy = .sendComplete)
  | leftSends (left : c.direction = .tx) (right : d.direction = .rx)
      (policy : c.shutdownPolicy = .sendComplete)
  | rightSends (left : c.direction = .rx) (right : d.direction = .tx)
      (policy : d.shutdownPolicy = .sendComplete)

/-- No wait has told the session to abort, and no operation of its chains met a failure. -/
structure Undisturbed (s : Session) : Prop where
  timer : ∀ o ∈ s.timeoutTimer, o.result ≠ some none
  signals : ∀ o ∈ s.signals, ∀ n, o.result ≠ some (.ok n)
  receives : ∀ call f, s.receives = [⟨call, some (.error f)⟩] → f = .eof
  sends : ∀ call f, s.sends ≠ [⟨call, some (.error f)⟩]

section

variable {s s' : Session} {t : Nat} {e : Event}

theorem SendAsk.free {c : SessionConfiguration} {draws : Nat → Nat} {slice : Nat} {v w : SendView}
    (h : SendAsk c draws slice v w) (sends : v.sends = []) {call : SendCall}
    {r : Except ErrorCode Nat} : w.sends ≠ [⟨call, some r⟩] := by
  cases h with
  | wait zero => simp [sends]
  | offer positive call' offered => simp [sends, Operation.initiate]
  | assertion udp m drawn outside => simp [sends]

/-- A failed send is reported by its completion only. -/
theorem send_error_origin (sound : Sound s) (hs : s.step (t, e) = some s') {call : SendCall}
    {f : ErrorCode} (failed : s'.sends = [⟨call, some (.error f)⟩]) :
    s.sends = s'.sends ∨ ∃ i, e = .complete (.sent i (.error f)) := by
  have fresh : ∀ w : SendView, s'.sendView = w → w.sends ≠ [⟨call, some (.error f)⟩] →
      s.sends = s'.sends := fun w view free =>
    absurd ((congrArg SendView.sends view).symm.trans failed) free
  cases Session.step_sendMove sound.tidy hs with
  | still view => exact .inl (congrArg SendView.sends view).symm
  | start unstarted used view => exact .inl (congrArg SendView.sends view).symm
  | startUnused unstarted unused view => exact .inl (congrArg SendView.sends view).symm
  | expire x waits due view => exact .inl (congrArg SendView.sends view).symm
  | slice x waits view =>
    have sends := (sound.send.wait waits).sends
    exact .inl (fresh _ rfl (view.free sends))
  | cancelled x f waits =>
    have result := (sound.send.wait waits).result
    simp at result
  | fill i n call event pending fits view => exact .inl (fresh _ view (by simp))
  | fail i g call' event pending system view =>
    have sends := (congrArg SendView.sends view).symm.trans failed
    simp only [List.cons.injEq, Operation.mk.injEq, Option.some.injEq, Except.error.injEq,
      and_true] at sends
    exact .inr ⟨i, by rw [event, sends.2]⟩
  | resume call n ready short view => exact .inl (fresh _ rfl (view.free rfl))
  | finish call n ready full view => exact .inl (fresh _ view (by simp [SendView.finish]))
  | aborted call ready => exact absurd (sound.send_system ready) (by decide)
  | stop call f ready view => exact .inl (fresh _ view (by simp))

theorem Undisturbed.step (h : Undisturbed s) (sound : Sound s) (hs : s.step (t, e) = some s')
    (timer : ∀ i, e ≠ .complete (.timedOut i)) (signal : ∀ n, e ≠ .complete (.signalled n))
    (receive : ∀ i f, e = .complete (.received i (.error f)) → f = .eof)
    (send : ∀ i f, e ≠ .complete (.sent i (.error f))) : Undisturbed s' := by
  have receives : ∀ call f, s'.receives = [⟨call, some (.error f)⟩] → f = .eof := by
    intro call f ended
    rcases receive_error_origin sound hs ended with same | ⟨i, event⟩
    · exact h.receives call f (same.trans ended)
    · exact receive i f event
  have sends : ∀ call f, s'.sends ≠ [⟨call, some (.error f)⟩] := by
    intro call f failed
    rcases send_error_origin sound hs failed with same | ⟨i, event⟩
    · exact h.sends call f (same.trans failed)
    · exact send i f event
  have waits : ∀ w : EndView, s'.endView = w → (∀ o ∈ w.timeoutTimer, o.result ≠ some none) →
      (∀ o ∈ w.signals, ∀ n, o.result ≠ some (.ok n)) → Undisturbed s' := by
    rintro w rfl timer signals
    exact ⟨timer, signals, receives, sends⟩
  -- A cancellation gives a result of its own to what is pending only.
  have cancelled : ∀ o ∈ Operation.settle (some .operationAborted) s.timeoutTimer,
      o.result ≠ some none := by
    intro o member
    obtain ⟨o, before, rfl⟩ := List.mem_map.mp member
    have := h.timer o before
    cases hr : o.result <;> simp_all
  cases Session.step_endMove sound.tidy hs with
  | chain step =>
    cases step with
    | still view => exact waits _ view h.timer h.signals
    | finish view =>
      refine waits _ view cancelled fun o member n => ?_
      obtain ⟨o, before, rfl⟩ := List.mem_map.mp member
      have := h.signals o before n
      cases hr : o.result <;> simp_all
  | arm duration i posted hi view =>
    refine waits _ view (fun o member => ?_) h.signals
    rcases List.mem_append.mp member with member | member
    · exact cancelled o member
    · obtain rfl := List.mem_singleton.mp member
      simp [Operation.initiate]
  | timedOut i after event => exact absurd event (timer i)
  | timeout i x failure after ready view =>
    obtain ⟨_, rfl⟩ := Operation.dequeue_eq_some ready
    exact waits _ view (fun o member => h.timer o (List.mem_of_mem_eraseIdx member)) h.signals
  | signalled n event => exact absurd event (signal n)
  | signal i r after ready view =>
    obtain ⟨_, rfl⟩ := Operation.dequeue_eq_some ready
    exact waits _ view h.timer fun o member => h.signals o (List.mem_of_mem_eraseIdx member)

/-- A failure of an undisturbed session comes from the bytes that it received. -/
theorem Undisturbed.cause (h : Undisturbed s) {f : ErrorCode} {n : Nat} (cause : AbortCause s f n)
    (positive : n ≠ 0) :
    (∃ slice size k, s.receives = [⟨⟨.onReceive slice, size⟩, some (.ok k)⟩] ∧
        s.receiveView.mismatches s.configuration.verify k ≠ 0) ∨
      (∃ slice size, s.receives = [⟨⟨.onReceive slice, size⟩, some (.error .eof)⟩]) ∨
      ∃ size k, s.receives = [⟨⟨.onEof, size⟩, some (.ok k)⟩] := by
  cases cause with
  | none => exact absurd rfl positive
  | mismatch slice size k ready => exact .inl ⟨slice, size, k, ready, positive⟩
  | unexpectedEof slice size ready => exact .inr (.inl ⟨slice, size, ready⟩)
  | unexpectedData size k ready => exact .inr (.inr ⟨size, k, ready⟩)
  | receive call f other ready => exact absurd (h.receives call f ready) other
  | send call f ready => exact absurd ready (h.sends call f)
  | timeout o queued ready => exact absurd ready (h.timer o queued)
  | signal o queued n ready => exact absurd ready (h.signals o queued n)

end

namespace StreamPair

variable {flow : Flow} {p p' : StreamPair} {x : Side} {t : Nat} {e : Event}

theorem step_eq_some (h : p.step flow (x, t, e) = some p') :
    Permitted flow p x e ∧ (p.session x).step (t, e) = some (p'.session x) ∧
      p'.session x.other = p.session x.other ∧
      p'.channel x = (p.channel x).drop (pulled e) ∧
      p'.channel x.other = p.channel x.other ++ (p.session x).push e := by
  simp only [step] at h
  split at h
  next permitted =>
    obtain ⟨s, hs, rfl⟩ := Option.map_eq_some_iff.mp h
    exact ⟨permitted, by simp [hs], by simp, by simp, by simp⟩
  next => simp at h

end StreamPair

end NetTester

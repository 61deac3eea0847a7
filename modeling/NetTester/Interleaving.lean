import NetTester.ExitStatus

namespace NetTester

/-- What a new session gets from outside: the draws of its distribution, and the instant. -/
def ApplicationEvent.creation : ApplicationEvent → Option ((Nat → Nat) × Nat)
  | .createSession draws now => some (draws, now)
  | _ => none

/-- The events of one session among those of the application. -/
def ApplicationEvent.own (j : Nat) : ApplicationEvent → List (Nat × Event)
  | .complete i t c => if i = j then [(t, .complete c)] else []
  | .pollOne _ (some (i, t, h)) => if i = j then [(t, .invoke h)] else []
  | _ => []

namespace Application

/-- The creations of sessions, in order. -/
def creations (events : List ApplicationEvent) : List ((Nat → Nat) × Nat) :=
  events.filterMap ApplicationEvent.creation

/-- The events of one session, in order. -/
def ownEvents (j : Nat) (events : List ApplicationEvent) : List (Nat × Event) :=
  events.flatMap (ApplicationEvent.own j)

@[simp] theorem creations_concat (events : List ApplicationEvent) (event : ApplicationEvent) :
    creations (events ++ [event]) = creations events ++ event.creation.toList := by
  cases h : event.creation <;> simp [creations, h]

@[simp] theorem ownEvents_concat (j : Nat) (events : List ApplicationEvent)
    (event : ApplicationEvent) :
    ownEvents j (events ++ [event]) = ownEvents j events ++ event.own j := by
  simp [ownEvents]

/-- The sessions are those that their own events lead to from their creations. -/
structure Projects (cs : List SessionConfiguration) (events : List ApplicationEvent)
    (a : Application) : Prop where
  created : a.outcome = none → (creations events).length = a.sessions.length
  reaches : ∀ (j : Nat) (s : Session), a.sessions[j]? = some s →
    ∃ (c : SessionConfiguration) (draws : Nat → Nat) (now : Nat), cs[j]? = some c ∧
      (creations events)[j]? = some (draws, now) ∧
      Session.Reaches c draws now (ownEvents j events) s
  absent : ∀ j, a.sessions[j]? = none → ownEvents j events = []

namespace Projects

variable {cs : List SessionConfiguration} {events : List ApplicationEvent} {a a' : Application}
  {event : ApplicationEvent}

/-- An event that is of no session leaves every session as it is. -/
theorem congr (h : Projects cs events a) (running : a.outcome = none)
    (sessions : a'.sessions = a.sessions) (creation : event.creation = none ∨ a'.outcome ≠ none)
    (own : ∀ j, event.own j = []) : Projects cs (events ++ [event]) a' where
  created := by
    intro running'
    rcases creation with none | stopped
    · simp [none, sessions, h.created running]
    · exact absurd running' stopped
  reaches := by
    intro j s found
    rw [sessions] at found
    obtain ⟨c, draws, now, hc, created, reach⟩ := h.reaches j s found
    refine ⟨c, draws, now, hc, ?_, by simpa [own j] using reach⟩
    rw [creations_concat, List.getElem?_append_left (List.getElem?_eq_some_iff.mp created).1]
    exact created
  absent := by
    intro j none
    simp [own j, h.absent j (sessions ▸ none)]

/-- An event of a session is one of that session alone. -/
theorem setSession (h : Projects cs events a) (running : a.outcome = none) {i t : Nat} {e : Event}
    {s s' : Session} (found : a.sessions[i]? = some s) (hs : s.step (t, e) = some s')
    (sessions : a'.sessions = a.sessions.set i s') (creation : event.creation = none)
    (own : ∀ j, event.own j = if i = j then [(t, e)] else []) :
    Projects cs (events ++ [event]) a' where
  created := by
    intro _
    simp [creation, sessions, h.created running]
  reaches := by
    intro j u hu
    rw [sessions] at hu
    simp only [creations_concat, creation, Option.toList_none, List.append_nil, ownEvents_concat,
      own]
    have hu : (a.setSession i s').sessions[j]? = some u := hu
    rcases setSession_getElem? hu with ⟨rfl, rfl⟩ | ⟨other, before⟩
    · obtain ⟨c, draws, now, hc, created, reach⟩ := h.reaches j s found
      refine ⟨c, draws, now, hc, created, ?_⟩
      rw [if_pos rfl]
      exact Machine.run_concat.mpr ⟨s, reach, hs⟩
    · obtain ⟨c, draws, now, hc, created, reach⟩ := h.reaches j u before
      refine ⟨c, draws, now, hc, created, ?_⟩
      rw [if_neg (Ne.symm other), List.append_nil]
      exact reach
  absent := by
    intro j none
    have none : a.sessions[j]? = .none := by
      rw [List.getElem?_eq_none_iff] at none ⊢
      simpa [sessions] using none
    have other : i ≠ j := by
      rintro rfl
      simp [none] at found
    simp [own j, other, h.absent j none]

theorem step (h : Projects cs events a) {n : Nat} (consistent : Consistent cs n a)
    (hs : a.step event = some a') : Projects cs (events ++ [event]) a' := by
  obtain ⟨running, move⟩ := step_cases hs
  clear hs
  cases move with
  | signal m => exact h.congr running (onSignal_frame m a).sessions (.inl rfl) fun _ => rfl
  | createSession draws now c rest next =>
    have length := h.created running
    have configuration : cs[a.sessions.length]? = some c := by
      have dropped := consistent.configurations.symm.trans next
      rw [← List.head?_drop, dropped]
      rfl
    have created : creations (events ++ [.createSession draws now]) =
        creations events ++ [(draws, now)] := creations_concat _ _
    have own : ∀ j, ownEvents j (events ++ [.createSession draws now]) = ownEvents j events :=
      fun j => (ownEvents_concat j _ _).trans (List.append_nil _)
    refine ⟨fun _ => by simp [created, length], fun j s found => ?_, fun j none => ?_⟩
    · rw [created, own]
      rcases Nat.lt_or_ge j a.sessions.length with old | new
      · rw [List.getElem?_append_left old] at found
        rw [List.getElem?_append_left (by omega)]
        exact h.reaches j s found
      · rw [List.getElem?_append_right new, List.getElem?_singleton] at found
        split at found
        next first =>
          obtain rfl : j = a.sessions.length := by omega
          cases Option.some.inj found
          refine ⟨c, draws, now, configuration, ?_, ?_⟩
          · rw [List.getElem?_append_right (by omega), length, Nat.sub_self]
            rfl
          · rw [h.absent _ (List.getElem?_eq_none (Nat.le_refl _))]
            rfl
        next => simp at found
    · rw [own]
      refine h.absent j ?_
      rw [List.getElem?_eq_none_iff] at none ⊢
      simp only [List.length_append, List.length_singleton] at none
      omega
  | createThrows event creation =>
    refine h.congr running rfl (.inr (by simp)) ?_
    rcases creation with rfl | ⟨draws, now, rfl⟩ <;> exact fun _ => rfl
  | startThreads created => exact h.congr running rfl (.inl rfl) fun _ => rfl
  | complete i t c s u found hs =>
    exact h.setSession running found hs rfl rfl fun _ => rfl
  | check k started bound checking => exact h.congr running rfl (.inl rfl) fun _ => rfl
  | poll k polling => exact h.congr running rfl (.inl rfl) fun _ => rfl
  | run k i t handler s u polling own found hs =>
    exact h.setSession running found hs rfl rfl fun _ => rfl
  | joinThreads started left => exact h.congr running rfl (.inl rfl) fun _ => rfl

theorem of_run {cores : Nat} (reach : Machine.run Application.step (.create cs cores) events =
    some a) : Projects cs events a := by
  refine Machine.run_induction (fun events => Projects cs events) ?_ ?_ reach
  · exact ⟨fun _ => rfl, by simp [Application.create], fun _ _ => rfl⟩
  · intro events a event a' reach h hs
    exact h.step (Consistent.of_run reach) hs

end Projects

end Application

open Application

/-- No session disturbs another: what a session has become is what its own events lead to alone, and
so a function of its configuration, of its creation and of these, whatever other sessions there are,
on however many cores, and in whatever order the events of the sessions are interleaved. -/
theorem sessions_apart {cs cs' : List SessionConfiguration} {cores cores' : Nat}
    {events events' : List ApplicationEvent} {a a' : Application}
    (reach : Machine.run Application.step (.create cs cores) events = some a)
    (reach' : Machine.run Application.step (.create cs' cores') events' = some a') {j j' : Nat}
    {s s' : Session} (found : a.sessions[j]? = some s) (found' : a'.sessions[j']? = some s')
    (configuration : cs[j]? = cs'[j']?)
    (created : (creations events)[j]? = (creations events')[j']?)
    (own : ownEvents j events = ownEvents j' events') :
    (∃ c draws now, cs[j]? = some c ∧ (creations events)[j]? = some (draws, now) ∧
      Session.Reaches c draws now (ownEvents j events) s) ∧ s = s' := by
  obtain ⟨c, draws, now, hc, first, run⟩ := (Projects.of_run reach).reaches j s found
  obtain ⟨c', draws', now', hc', first', run'⟩ := (Projects.of_run reach').reaches j' s' found'
  obtain rfl : c = c' := by simpa [hc, hc'] using configuration
  obtain ⟨rfl, rfl⟩ : draws = draws' ∧ now = now' := by simpa [first, first'] using created
  refine ⟨⟨c, draws, now, hc, first, run⟩, ?_⟩
  rw [own] at run
  exact Option.some.inj (run.symm.trans run')

/-- A datagram session that sends one byte. -/
def oneByte : SessionConfiguration :=
  { defaultConfiguration "127.0.0.1:1234" ⟨1, .iec, one_bounded⟩ with
    protocol := .udp, direction := .tx }

/-- The session of `sendByte` beside another one, on two threads that take turns. -/
def sendBytes : List ApplicationEvent :=
  [.createSession (fun _ => 0) 0, .createSession (fun _ => 0) 3, .startThreads, .check 1] ++
    turn (.posted 0) ++ [.pollOne 1 (some (1, 5, .posted 0)), .complete 0 0 (.sendSlice 0)] ++
    turn (.sendThrottle 0) ++ [.check 1, .complete 0 0 (.sent 0 (.ok 1))] ++ turn (.onSend 0) ++
    [.complete 1 6 (.sendSlice 0)] ++ turn (.onTimeout 0) ++ turn (.onSignal 0)

theorem sessions_apart_sendBytes : ∃ a a' s s',
    Machine.run Application.step (.create [oneByte] 0) sendByte = some a ∧
    Machine.run Application.step (.create [oneByte, oneByte] 2) sendBytes = some a' ∧
    a.sessions[0]? = some s ∧ a'.sessions[0]? = some s' ∧
    (∃ c draws now, [oneByte][0]? = some c ∧ (creations sendByte)[0]? = some (draws, now) ∧
      Session.Reaches c draws now (ownEvents 0 sendByte) s) ∧ s = s' := by
  obtain ⟨a, reach, s, found⟩ : ∃ a, Machine.run Application.step (.create [oneByte] 0) sendByte =
      some a ∧ ∃ s, a.sessions[0]? = some s :=
    Machine.exists_run (fun a => a.sessions[0]?.isSome) (b := true) (by decide +kernel)
      fun a _ some => Option.isSome_iff_exists.mp some
  obtain ⟨a', reach', s', found'⟩ : ∃ a', Machine.run Application.step
      (.create [oneByte, oneByte] 2) sendBytes = some a' ∧ ∃ s', a'.sessions[0]? = some s' :=
    Machine.exists_run (fun a => a.sessions[0]?.isSome) (b := true) (by decide +kernel)
      fun a _ some => Option.isSome_iff_exists.mp some
  have created : (creations sendByte)[0]? = (creations sendBytes)[0]? := rfl
  have own : ownEvents 0 sendByte = ownEvents 0 sendBytes := by decide
  exact ⟨a, a', s, s', reach, reach', found, found',
    sessions_apart reach reach' found found' rfl created own⟩

end NetTester

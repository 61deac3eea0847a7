import Mathlib.Data.List.Chain
import NetTester.GivenChunks

namespace NetTester

/-- Each chunk that an empty one follows ends where the expected bytes start over. -/
def Aligned (chunks : List (List UInt8)) : Prop :=
  chunks.IsChain fun chunk next => next = [] → chunk.length % 2 ^ 8 = 0

variable {chunks : List (List UInt8)} {chunk : List UInt8}

theorem aligned_concat : Aligned (chunks ++ [chunk]) ↔
    Aligned chunks ∧ (chunk = [] → (chunks.getLastD []).length % 2 ^ 8 = 0) := by
  simp only [Aligned, List.isChain_append, List.isChain_singleton, true_and, List.head?_cons,
    Option.mem_some_iff, forall_eq']
  refine and_congr_right fun _ => ?_
  cases chunks using List.reverseRecOn with
  | nil => simp
  | append_singleton before last => simp

/-- The bytes of the chunks are those that a tester sends. -/
def OnPattern (chunks : List (List UInt8)) : Prop :=
  chunks.flatten = pattern chunks.flatten.length

theorem not_mismatched_all : ¬Mismatched .all chunks ↔ OnPattern chunks := by
  constructor
  · intro h
    refine eq_pattern rfl fun p bound => ?_
    by_contra bad
    exact h ⟨p, bound, bad⟩
  · rintro h ⟨p, bound, bad⟩
    rw [h] at bad
    exact bad (pattern_getElem? bound)

theorem onPattern_concat : OnPattern (chunks ++ [chunk]) ↔ OnPattern chunks ∧
    ∀ i < chunk.length, chunk[i]? = some (UInt8.ofNat (chunks.flatten.length + i)) := by
  rw [← not_mismatched_all, mismatched_all_concat, not_or, not_mismatched_all]
  simp only [not_exists, not_and, not_not]

theorem frontByte_concat_nil : frontByte (chunks ++ [[]]) = frontByte chunks := by
  simp [frontByte]

theorem frontByte_concat_cons (b : UInt8) (rest : List UInt8) :
    frontByte (chunks ++ [b :: rest]) = b := by
  simp [frontByte]

theorem ofNat_eq_zero {n : Nat} : UInt8.ofNat n = 0 ↔ n % 2 ^ 8 = 0 := by
  rw [← UInt8.toNat_inj]
  simp

/-- On chunks of the pattern that are aligned, the front byte is the one expected at the start of
the last chunk. -/
theorem frontByte_aligned (bytes : OnPattern chunks) (aligned : Aligned chunks) :
    frontByte chunks + UInt8.ofNat (chunks.getLastD []).length =
      UInt8.ofNat chunks.flatten.length := by
  induction chunks using List.reverseRecOn with
  | nil => rfl
  | append_singleton chunks chunk ih =>
    obtain ⟨before, content⟩ := onPattern_concat.mp bytes
    obtain ⟨earlier, last⟩ := aligned_concat.mp aligned
    cases chunk with
    | nil =>
      have front := ih before earlier
      rw [ofNat_eq_zero.mpr (last rfl)] at front
      simpa [frontByte_concat_nil] using front
    | cons b rest =>
      have first := content 0 (by simp)
      simp only [List.getElem?_cons_zero, Option.some.injEq, Nat.add_zero] at first
      rw [frontByte_concat_cons, first]
      simp

/-- On chunks of the pattern the first byte of the buffer deceives exactly at an empty chunk after
one that does not end where the pattern starts over. -/
theorem mismatched_first_iff (bytes : OnPattern chunks) :
    Mismatched .first chunks ↔ ¬Aligned chunks := by
  induction chunks using List.reverseRecOn with
  | nil => simp [Mismatched, Aligned]
  | append_singleton chunks chunk ih =>
    obtain ⟨before, content⟩ := onPattern_concat.mp bytes
    rw [mismatched_first_concat, ih before, aligned_concat, not_and]
    by_cases earlier : Aligned chunks
    · have front := frontByte_aligned before earlier
      simp only [earlier, not_true_eq_false, false_or, forall_const, Classical.not_imp]
      cases chunk with
      | nil =>
        rw [frontByte_concat_nil, ← front, ← ofNat_eq_zero]
        simp
      | cons b rest =>
        have first := content 0 (by simp)
        simp only [List.getElem?_cons_zero, Option.some.injEq, Nat.add_zero] at first
        rw [frontByte_concat_cons, first]
        simp
    · simp [earlier]

/-- Of two sessions that are given the same chunks, the one that verifies first bytes reports no
mismatch that the one that verifies all bytes would not, exactly when the bytes are not the expected
ones anyway or the chunks are aligned. -/
theorem first_within_all_iff {c : SessionConfiguration} (accepted : Accepted c)
    {draws : Nat → Nat} {now : Nat} {events events' : List (Nat × Event)} {s s' : Session}
    (all : Session.Reaches { c with verify := .all } draws now events s)
    (first : Session.Reaches { c with verify := .first } draws now events' s')
    (given : (Session.create { c with verify := .all } draws now).chunksGiven events = chunks)
    (given' : (Session.create { c with verify := .first } draws now).chunksGiven events' =
      chunks) :
    (.tester .dataMismatch ∉ s.aborts → .tester .dataMismatch ∉ s'.aborts) ↔
      (¬OnPattern chunks ∨ Aligned chunks) := by
  have checks := accepted_iff.mp accepted
  have any : ∀ verify, Accepted { c with verify := verify } := fun _ => accepted_iff.mpr checks
  have found := (judged (any .all) all).verified.reported
  have found' := (judged (any .first) first).verified.reported
  rw [(Sound.of_reaches (any .all) all).2.1, given] at found
  rw [(Sound.of_reaches (any .first) first).2.1, given'] at found'
  rw [found, found', not_mismatched_all]
  by_cases bytes : OnPattern chunks
  · rw [mismatched_first_iff bytes]
    simp [bytes]
  · simp [bytes]

/-- A session that receives two bytes in datagrams. -/
def twoByteConfiguration : SessionConfiguration :=
  { defaultConfiguration "127.0.0.1:1234" ⟨2, .iec, by decide⟩ with
    direction := .rx
    shutdownPolicy := .waitForPeer
    protocol := .udp }

/-- A datagram, and another one. -/
def twoDatagrams (first second : List UInt8) : List (Nat × Event) :=
  [(0, .invoke (.posted 0)), (0, .complete (.receiveSlice 0)), (0, .invoke (.receiveThrottle 0)),
    (0, .complete (.received 0 (.ok first))), (0, .invoke (.onReceive 0)),
    (0, .complete (.received 0 (.ok second))), (0, .invoke (.onReceive 0))]

theorem accepted_twoBytes : Accepted twoByteConfiguration :=
  accepted_iff.mpr (by decide)

/-- A session that receives two periods of the pattern in datagrams. -/
def twoPeriodConfiguration : SessionConfiguration :=
  { twoByteConfiguration with size := ⟨2 ^ 9, .iec, by decide⟩ }

/-- An empty datagram after a whole period is aligned: the byte that is still there is expected. -/
theorem first_within_all_datagrams : ∃ s s',
    Session.Reaches { twoPeriodConfiguration with verify := .all } (fun _ => 0) 0
      (twoDatagrams (pattern (2 ^ 8)) []) s ∧
    Session.Reaches { twoPeriodConfiguration with verify := .first } (fun _ => 0) 0
      (twoDatagrams (pattern (2 ^ 8)) []) s' ∧ .tester .dataMismatch ∉ s'.aborts := by
  obtain ⟨s, all, silent⟩ : ∃ s, Session.Reaches { twoPeriodConfiguration with verify := .all }
      (fun _ => 0) 0 (twoDatagrams (pattern (2 ^ 8)) []) s ∧ s.aborts = [] :=
    Machine.exists_run Session.aborts (by decide +kernel) fun _ _ observed => observed
  obtain ⟨s', first⟩ : ∃ s', Session.Reaches { twoPeriodConfiguration with verify := .first }
      (fun _ => 0) 0 (twoDatagrams (pattern (2 ^ 8)) []) s' :=
    Option.isSome_iff_exists.mp (by decide +kernel)
  have given : (Session.create { twoPeriodConfiguration with verify := .all }
      (fun _ => 0) 0).chunksGiven (twoDatagrams (pattern (2 ^ 8)) []) = [pattern (2 ^ 8), []] := by
    decide +kernel
  have given' : (Session.create { twoPeriodConfiguration with verify := .first }
      (fun _ => 0) 0).chunksGiven (twoDatagrams (pattern (2 ^ 8)) []) = [pattern (2 ^ 8), []] := by
    decide +kernel
  refine ⟨s, s', all, first, ?_⟩
  exact (first_within_all_iff (accepted_iff.mpr (by decide)) all first given given').mpr
    (.inr (by simp [Aligned])) (by simp [silent])

/-- Verification of first bytes reads the byte of the first datagram for the second one too. -/
theorem first_beyond_all : ¬∀ (c : SessionConfiguration), Accepted c →
    ∀ (draws : Nat → Nat) (now : Nat) (events events' : List (Nat × Event)) (s s' : Session),
      Session.Reaches { c with verify := .all } draws now events s →
      Session.Reaches { c with verify := .first } draws now events' s' →
      (Session.create { c with verify := .all } draws now).chunksGiven events =
        (Session.create { c with verify := .first } draws now).chunksGiven events' →
      .tester .dataMismatch ∉ s.aborts → .tester .dataMismatch ∉ s'.aborts := by
  intro claim
  obtain ⟨s, all, silent⟩ : ∃ s, Session.Reaches { twoByteConfiguration with verify := .all }
      (fun _ => 0) 0 (twoDatagrams [0] []) s ∧ s.aborts = [] :=
    Machine.exists_run Session.aborts (by decide +kernel) fun _ _ observed => observed
  obtain ⟨s', first, reported⟩ : ∃ s', Session.Reaches
      { twoByteConfiguration with verify := .first } (fun _ => 0) 0 (twoDatagrams [0] []) s' ∧
      s'.aborts = [.tester .dataMismatch] :=
    Machine.exists_run Session.aborts (by decide +kernel) fun _ _ observed => observed
  refine claim _ accepted_twoBytes _ _ _ _ s s' all first (by decide +kernel) ?_ ?_
  · simp [silent]
  · simp [reported]

end NetTester

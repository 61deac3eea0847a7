import NetTester.Application
import Mathlib.Data.List.Destutter

namespace NetTester

abbrev CpuCoreId := UInt32

structure Ranges (α : Type) where
  value : List (Range α)

abbrev CpuCoreIdRanges := Ranges CpuCoreId

theorem sub_succ_lt {i e : CpuCoreId} (h : i ≠ e) : (e - (i + 1)).toNat < (e - i).toNat := by
  have distinct : i.toNat ≠ e.toNat := fun same => h (UInt32.toNat_inj.mp same)
  have low := i.toNat_lt
  have high := e.toNat_lt
  simp only [UInt32.toNat_sub, UInt32.toNat_add, UInt32.toNat_one]
  omega

namespace Range

/-- The loop of `as_sequence`. The counter wraps, and the test is `i != e`. -/
def enumerate (i e : CpuCoreId) : List CpuCoreId :=
  if i = e then [] else i :: enumerate (i + 1) e
termination_by (e - i).toNat
decreasing_by exact sub_succ_lt ‹_›

def asSequence (range : Range CpuCoreId) : List CpuCoreId :=
  enumerate range.low range.high ++ [range.high]

def Has (range : Range CpuCoreId) (core : CpuCoreId) : Prop :=
  range.low ≤ core ∧ core ≤ range.high

end Range

def Ranges.asSequence (ranges : CpuCoreIdRanges) : List CpuCoreId :=
  (ranges.value.flatMap Range.asSequence).destutter (· ≠ ·)

def toCpuCoreList (ranges : CpuCoreIdRanges) : List CpuCoreId := ranges.asSequence

/-- The core to which a thread of the application is pinned. -/
def pinnedCore (coreIds : List CpuCoreId) (i : Nat) : Option CpuCoreId :=
  if coreIds.length ≤ i then none else coreIds[i]?

section

variable {i e core : CpuCoreId} {range : Range CpuCoreId}

theorem toNat_succ (h : i ≤ e) (distinct : i ≠ e) :
    i.toNat + 1 ≤ e.toNat ∧ (i + 1).toNat = i.toNat + 1 := by
  have bound := e.toNat_lt
  have order := UInt32.le_iff_toNat_le.mp h
  have apart : i.toNat ≠ e.toNat := fun same => distinct (UInt32.toNat_inj.mp same)
  simp only [UInt32.toNat_add, UInt32.toNat_one]
  omega

namespace Range

theorem mem_enumerate (h : i ≤ e) : core ∈ enumerate i e ↔ i ≤ core ∧ core < e := by
  induction i using enumerate.induct e with
  | case1 =>
    rw [enumerate, if_pos rfl]
    simp only [List.not_mem_nil, false_iff, UInt32.le_iff_toNat_le, UInt32.lt_iff_toNat_lt]
    omega
  | case2 i distinct ih =>
    obtain ⟨short, succ⟩ := toNat_succ h distinct
    rw [enumerate, if_neg distinct, List.mem_cons, ih (UInt32.le_iff_toNat_le.mpr (by omega))]
    simp only [← UInt32.toNat_inj, UInt32.le_iff_toNat_le, UInt32.lt_iff_toNat_lt]
    omega

theorem enumerate_increasing (h : i ≤ e) : (enumerate i e).Pairwise (· < ·) := by
  induction i using enumerate.induct e with
  | case1 =>
    rw [enumerate, if_pos rfl]
    exact .nil
  | case2 i distinct ih =>
    obtain ⟨short, succ⟩ := toNat_succ h distinct
    have next : i + 1 ≤ e := UInt32.le_iff_toNat_le.mpr (by omega)
    rw [enumerate, if_neg distinct]
    refine List.pairwise_cons.mpr ⟨fun c hc => ?_, ih next⟩
    have above := UInt32.le_iff_toNat_le.mp ((mem_enumerate next).mp hc).1
    exact UInt32.lt_iff_toNat_lt.mpr (by omega)

theorem mem_asSequence (h : range.low ≤ range.high) : core ∈ range.asSequence ↔ range.Has core := by
  have order := UInt32.le_iff_toNat_le.mp h
  simp only [asSequence, Has, List.mem_append, mem_enumerate h, List.mem_singleton,
    ← UInt32.toNat_inj, UInt32.le_iff_toNat_le, UInt32.lt_iff_toNat_lt]
  omega

theorem asSequence_nodup (h : range.low ≤ range.high) : range.asSequence.Nodup := by
  refine List.Nodup.append ?_ (List.nodup_singleton _) ?_
  · exact (enumerate_increasing h).imp fun lower => UInt32.ne_of_lt lower
  · intro c hc last
    rw [List.mem_singleton.mp last] at hc
    exact UInt32.lt_irrefl _ ((mem_enumerate h).mp hc).2

theorem head_asSequence : range.asSequence.head? = some range.low := by
  unfold asSequence
  rw [enumerate]
  split
  next same => simp [same]
  next => rfl

theorem last_asSequence : range.asSequence.getLast? = some range.high := by
  simp [asSequence]

theorem asSequence_ne_nil : range.asSequence ≠ [] := by
  simp [asSequence]

end Range

end

section

variable {α : Type} [DecidableEq α] {a : α} {xs ys : List α}

theorem mem_destutter : a ∈ xs.destutter (· ≠ ·) ↔ a ∈ xs := by
  induction xs with
  | nil => simp
  | cons x xs ih =>
    cases xs with
    | nil => simp
    | cons y ys =>
      rw [List.destutter_cons_cons]
      split
      next =>
        rw [List.mem_cons, ← List.destutter_cons', ih]
        simp only [List.mem_cons]
      next same =>
        obtain rfl := not_not.mp same
        rw [← List.destutter_cons', ih]
        simp

/-- Equal neighbours are all that is removed: what comes again has to come at once. -/
theorem nodup_destutter_cons : ((a :: xs).destutter (· ≠ ·)).Nodup ↔
    (xs.destutter (· ≠ ·)).Nodup ∧ (a ∈ xs → xs.head? = some a) := by
  cases xs with
  | nil => simp
  | cons x xs =>
    rw [List.destutter_cons_cons, ← List.destutter_cons']
    split
    next distinct =>
      rw [List.nodup_cons, mem_destutter, List.head?_cons, Option.some.injEq, and_comm]
      exact and_congr_right fun _ => ⟨fun absent again => absurd again absent,
        fun again member => distinct (again member).symm⟩
    next same =>
      obtain rfl := not_not.mp same
      simp [List.destutter_cons']

/-- A list without repetition before another: only its last element may come again. -/
theorem nodup_destutter_append (nodup : xs.Nodup) : ((xs ++ ys).destutter (· ≠ ·)).Nodup ↔
    (ys.destutter (· ≠ ·)).Nodup ∧
      ∀ x ∈ xs, x ∈ ys → xs.getLast? = some x ∧ ys.head? = some x := by
  induction xs with
  | nil => simp
  | cons x xs ih =>
    obtain ⟨absent, nodup⟩ := List.nodup_cons.mp nodup
    rw [List.cons_append, nodup_destutter_cons, ih nodup]
    cases xs with
    | nil => simp
    | cons y others =>
      rw [List.getLast?_cons_cons, and_assoc]
      refine and_congr_right fun _ => ?_
      constructor
      · rintro ⟨later, again⟩
        refine List.forall_mem_cons.mpr ⟨fun member => ?_, later⟩
        have first := again (List.mem_append_right _ member)
        simp only [List.cons_append, List.head?_cons, Option.some.injEq] at first
        exact absurd (List.mem_cons.mpr (.inl first.symm)) absent
      · intro all
        obtain ⟨once, later⟩ := List.forall_mem_cons.mp all
        refine ⟨later, fun member => ?_⟩
        have again := (List.mem_append.mp member).resolve_left absent
        exact absurd (List.mem_of_getLast? (once again).1) absent

end

/-- A core that a later range has again is the last of its range and the first of the next. -/
def RepeatsAtOnce (ranges : CpuCoreIdRanges) : Prop :=
  ∀ before range later, ranges.value = before ++ range :: later →
    ∀ core, range.Has core → (∃ other ∈ later, other.Has core) →
      range.high = core ∧ ∃ next ∈ later.head?, next.low = core

/-- No two threads of the application are pinned to one core. -/
def PinnedApart (coreIds : List CpuCoreId) : Prop :=
  ∀ i j core, i < Application.getConcurrency coreIds.length →
    j < Application.getConcurrency coreIds.length →
    pinnedCore coreIds i = some core → pinnedCore coreIds j = some core → i = j

theorem pinnedApart_iff {coreIds : List CpuCoreId} : PinnedApart coreIds ↔ coreIds.Nodup := by
  have pinned : ∀ i, pinnedCore coreIds i = coreIds[i]? := by
    intro i
    unfold pinnedCore
    split
    next beyond => rw [List.getElem?_eq_none beyond]
    next => rfl
  have threads : ∀ {i core}, coreIds[i]? = some core →
      i < Application.getConcurrency coreIds.length := by
    intro i core found
    have bound := (List.getElem?_eq_some_iff.mp found).1
    unfold Application.getConcurrency
    split <;> omega
  simp only [PinnedApart, pinned]
  constructor
  · intro apart
    refine List.nodup_iff_injective_get.mpr fun i j same => Fin.ext ?_
    have found : coreIds[i.val]? = some (coreIds.get i) := List.getElem?_eq_getElem i.isLt
    have found' : coreIds[j.val]? = some (coreIds.get i) := by
      rw [same]
      exact List.getElem?_eq_getElem j.isLt
    exact apart i j _ (threads found) (threads found') found found'
  · intro nodup i j core _ _ found found'
    obtain ⟨bound, rfl⟩ := List.getElem?_eq_some_iff.mp found
    obtain ⟨bound', same⟩ := List.getElem?_eq_some_iff.mp found'
    exact (nodup.getElem_inj_iff.mp same).symm

theorem repeatsAtOnce_cons {range : Range CpuCoreId} {ranges : List (Range CpuCoreId)} :
    RepeatsAtOnce ⟨range :: ranges⟩ ↔ RepeatsAtOnce ⟨ranges⟩ ∧
      ∀ core, range.Has core → (∃ other ∈ ranges, other.Has core) →
        range.high = core ∧ ∃ next ∈ ranges.head?, next.low = core := by
  constructor
  · intro h
    refine ⟨fun before first later split => h (range :: before) first later ?_,
      h [] range ranges rfl⟩
    rw [List.cons_append]
    exact congrArg (range :: ·) split
  · rintro ⟨others, first⟩ before range' later split
    cases before with
    | nil =>
      obtain ⟨rfl, rfl⟩ := List.cons.inj split
      exact first
    | cons range'' before => exact others before range' later (List.cons.inj split).2

theorem head_flatMap_asSequence {ranges : List (Range CpuCoreId)} :
    (ranges.flatMap Range.asSequence).head? = ranges.head?.map Range.low := by
  cases ranges with
  | nil => rfl
  | cons range ranges =>
    rw [List.flatMap_cons, List.head?_append_of_ne_nil _ Range.asSequence_ne_nil,
      Range.head_asSequence]
    rfl

/-- A core comes twice unless it comes at once. -/
theorem nodup_asSequence_iff {ranges : List (Range CpuCoreId)}
    (ordered : ∀ range ∈ ranges, range.low ≤ range.high) :
    ((ranges.flatMap Range.asSequence).destutter (· ≠ ·)).Nodup ↔ RepeatsAtOnce ⟨ranges⟩ := by
  induction ranges with
  | nil => simp [RepeatsAtOnce]
  | cons range ranges ih =>
    obtain ⟨order, ordered⟩ := List.forall_mem_cons.mp ordered
    have later : ∀ core, core ∈ ranges.flatMap Range.asSequence ↔
        ∃ other ∈ ranges, other.Has core := by
      intro core
      rw [List.mem_flatMap]
      exact exists_congr fun other => and_congr_right fun member =>
        Range.mem_asSequence (ordered other member)
    rw [List.flatMap_cons, nodup_destutter_append (Range.asSequence_nodup order), ih ordered,
      repeatsAtOnce_cons]
    simp only [Range.mem_asSequence order, later, Range.last_asSequence, head_flatMap_asSequence,
      Option.some.injEq, Option.map_eq_some_iff, Option.mem_def]

/-- The list of the cores has no core twice, and no two threads share one, exactly if a core that
several ranges have is asked for at one place. -/
theorem cores_distinct_iff (ranges : CpuCoreIdRanges)
    (ordered : ∀ range ∈ ranges.value, range.low ≤ range.high) :
    (toCpuCoreList ranges).Nodup ∧ PinnedApart (toCpuCoreList ranges) ↔ RepeatsAtOnce ranges := by
  rw [pinnedApart_iff, and_self]
  exact nodup_asSequence_iff ordered

theorem cores_distinct_neighbours :
    (toCpuCoreList ⟨[⟨0, 1⟩, ⟨1, 3⟩]⟩).Nodup ∧ PinnedApart (toCpuCoreList ⟨[⟨0, 1⟩, ⟨1, 3⟩]⟩) := by
  apply (cores_distinct_iff ⟨[⟨0, 1⟩, ⟨1, 3⟩]⟩ (by decide)).mpr
  rw [repeatsAtOnce_cons, repeatsAtOnce_cons]
  refine ⟨⟨by simp [RepeatsAtOnce], by simp⟩, fun core has others => ?_⟩
  obtain ⟨other, member, has'⟩ := others
  obtain rfl := List.mem_singleton.mp member
  have same : (1 : CpuCoreId) = core := UInt32.le_antisymm has'.1 has.2
  exact ⟨same, _, rfl, same⟩

/-- Only neighbours are compared, so a range that is given again is kept. -/
theorem cores_repeated : toCpuCoreList ⟨[⟨0, 1⟩, ⟨0, 1⟩]⟩ = [0, 1, 0, 1] ∧
    ¬(toCpuCoreList ⟨[⟨0, 1⟩, ⟨0, 1⟩]⟩).Nodup ∧
    ¬PinnedApart (toCpuCoreList ⟨[⟨0, 1⟩, ⟨0, 1⟩]⟩) := by
  have cores : Range.asSequence ⟨0, 1⟩ = [0, 1] := by
    simp [Range.asSequence, Range.enumerate]
  have list : toCpuCoreList ⟨[⟨0, 1⟩, ⟨0, 1⟩]⟩ = [0, 1, 0, 1] := by
    simp only [toCpuCoreList, Ranges.asSequence, List.flatMap_cons, cores]
    decide
  rw [pinnedApart_iff, list]
  exact ⟨rfl, by decide, by decide⟩

end NetTester

import Mathlib.Data.List.Basic

/-- Regular expressions whose groups capture what they read. Repetition is greedy, and an iteration
reads something. -/
inductive Regex
  | char (p : Char → Bool)
  | seq (r s : Regex)
  | alt (r s : Regex)
  | opt (r : Regex)
  | many (r : Regex)
  | group (i : Nat) (r : Regex)

namespace Regex

/-- What the groups have read, latest first. -/
abbrev Captures := List (Nat × List Char)

/-- A position of a backtracking match: what is left to read, and the captures so far. -/
@[ext] structure Position where
  rest : List Char
  captures : Captures

/-- The ends of up to a number of iterations, in the order in which they are tried. -/
def iterate (run : Position → List Position) : Nat → Position → List Position
  | 0, position => [position]
  | n + 1, position =>
    ((run position).filter fun after => after.rest.length < position.rest.length).flatMap
      (iterate run n) ++ [position]

/-- The positions at which the expression may end, in the order in which they are tried. -/
def run : Regex → Position → List Position
  | .char _, ⟨[], _⟩ => []
  | .char p, ⟨c :: cs, captures⟩ => if p c then [⟨cs, captures⟩] else []
  | .seq r s, position => (run r position).flatMap (run s)
  | .alt r s, position => run r position ++ run s position
  | .opt r, position => run r position ++ [position]
  | .many r, position => iterate (run r) position.rest.length position
  | .group i r, position => (run r position).map fun after =>
      { after with
        captures := (i, position.rest.take (position.rest.length - after.rest.length)) ::
          after.captures }

/-- A match of the whole text: the captures of the first way that reads all of it. -/
def regexMatch (r : Regex) (text : List Char) : Option Captures :=
  ((run r ⟨text, []⟩).find? fun position => position.rest.isEmpty).map Position.captures

/-- At least one iteration. -/
def plus (r : Regex) : Regex := .seq r (.many r)

/-- A literal text, of a first character and the others. -/
def literal (c : Char) : List Char → Regex
  | [] => .char (· == c)
  | d :: ds => .seq (.char (· == c)) (literal d ds)

/-- What an expression reads, and what its groups capture of it. -/
inductive Reads : Regex → List Char → Captures → Prop
  | char {p : Char → Bool} {c : Char} (h : p c = true) : Reads (.char p) [c] []
  | seq {r s : Regex} {u v : List Char} {a b : Captures} (left : Reads r u a)
      (right : Reads s v b) : Reads (.seq r s) (u ++ v) (b ++ a)
  | altLeft {r s : Regex} {u : List Char} {a : Captures} (h : Reads r u a) : Reads (.alt r s) u a
  | altRight {r s : Regex} {u : List Char} {a : Captures} (h : Reads s u a) : Reads (.alt r s) u a
  | optSome {r : Regex} {u : List Char} {a : Captures} (h : Reads r u a) : Reads (.opt r) u a
  | optNone {r : Regex} : Reads (.opt r) [] []
  | manyNil {r : Regex} : Reads (.many r) [] []
  | manyCons {r : Regex} {u v : List Char} {a b : Captures} (some : u ≠ []) (first : Reads r u a)
      (others : Reads (.many r) v b) : Reads (.many r) (u ++ v) (b ++ a)
  | group {i : Nat} {r : Regex} {u : List Char} {a : Captures} (h : Reads r u a) :
      Reads (.group i r) u ((i, u) :: a)

variable {r s : Regex} {p : Char → Bool} {position after : Position} {w : List Char} {a : Captures}

theorem reads_char : Reads (.char p) w a ↔ ∃ c, p c = true ∧ w = [c] ∧ a = [] := by
  constructor
  · rintro ⟨h⟩
    exact ⟨_, h, rfl, rfl⟩
  · rintro ⟨c, h, rfl, rfl⟩
    exact .char h

theorem reads_seq : Reads (.seq r s) w a ↔
    ∃ u v b c, Reads r u b ∧ Reads s v c ∧ w = u ++ v ∧ a = c ++ b := by
  constructor
  · rintro (_ | ⟨left, right⟩)
    exact ⟨_, _, _, _, left, right, rfl, rfl⟩
  · rintro ⟨u, v, b, c, left, right, rfl, rfl⟩
    exact .seq left right

theorem reads_alt : Reads (.alt r s) w a ↔ Reads r w a ∨ Reads s w a := by
  constructor
  · rintro (_ | _ | h | h)
    · exact .inl h
    · exact .inr h
  · rintro (h | h)
    · exact .altLeft h
    · exact .altRight h

theorem reads_opt : Reads (.opt r) w a ↔ Reads r w a ∨ w = [] ∧ a = [] := by
  constructor
  · intro h
    cases h with
    | optSome h => exact .inl h
    | optNone => exact .inr ⟨rfl, rfl⟩
  · rintro (h | ⟨rfl, rfl⟩)
    · exact .optSome h
    · exact .optNone

theorem reads_group {i : Nat} : Reads (.group i r) w a ↔ ∃ b, Reads r w b ∧ a = (i, w) :: b := by
  constructor
  · intro h
    cases h with
    | group h => exact ⟨_, h, rfl⟩
  · rintro ⟨b, h, rfl⟩
    exact .group h

theorem reads_many : Reads (.many r) w a ↔ w = [] ∧ a = [] ∨
    ∃ u v b c, u ≠ [] ∧ Reads r u b ∧ Reads (.many r) v c ∧ w = u ++ v ∧ a = c ++ b := by
  constructor
  · intro h
    cases h with
    | manyNil => exact .inl ⟨rfl, rfl⟩
    | manyCons some first others => exact .inr ⟨_, _, _, _, some, first, others, rfl, rfl⟩
  · rintro (⟨rfl, rfl⟩ | ⟨u, v, b, c, some, first, others, rfl, rfl⟩)
    · exact .manyNil
    · exact .manyCons some first others

/-- An expression that reads a text gets from its start to its end. -/
def Steps (r : Regex) (position after : Position) : Prop :=
  ∃ w a, Reads r w a ∧ position.rest = w ++ after.rest ∧
    after.captures = a ++ position.captures

theorem Steps.refl (h : Reads r [] []) : Steps r position position := ⟨[], [], h, rfl, rfl⟩

theorem Position.eq_of_none {w : List Char} {a : Captures} (rest : position.rest = w ++ after.rest)
    (captures : after.captures = a ++ position.captures) (h : w = [] ∧ a = []) :
    after = position := by
  obtain ⟨rfl, rfl⟩ := h
  exact Position.ext rest.symm captures

/-- As many iterations as there are characters left are enough. -/
theorem mem_iterate (spec : ∀ {position after}, after ∈ run r position ↔ Steps r position after)
    {n : Nat} (enough : position.rest.length ≤ n) :
    after ∈ iterate (run r) n position ↔ Steps (.many r) position after := by
  induction n generalizing position with
  | zero =>
    simp only [iterate, List.mem_singleton]
    constructor
    · rintro rfl
      exact .refl .manyNil
    · rintro ⟨w, a, reads, rest, captures⟩
      rcases reads_many.mp reads with none | ⟨u, v, b, c, some, _, _, rfl, _⟩
      · exact Position.eq_of_none rest captures none
      · have long := congrArg List.length rest
        have nonempty := List.length_pos_iff.mpr some
        simp only [List.length_append] at long
        omega
  | succ n ih =>
    simp only [iterate, List.mem_append, List.mem_flatMap, List.mem_filter, List.mem_singleton,
      decide_eq_true_eq]
    constructor
    · rintro (⟨mid, ⟨first, shorter⟩, others⟩ | rfl)
      · obtain ⟨u, b, first, rest, captures⟩ := spec.mp first
        have some : u ≠ [] := by
          rintro rfl
          simp [rest] at shorter
        obtain ⟨v, c, others, rest', captures'⟩ := (ih (by omega)).mp others
        exact ⟨u ++ v, c ++ b, .manyCons some first others,
          by rw [rest, rest', List.append_assoc], by rw [captures', captures, List.append_assoc]⟩
      · exact .refl .manyNil
    · rintro ⟨w, a, reads, rest, captures⟩
      rcases reads_many.mp reads with none | ⟨u, v, b, c, some, first, others, rfl, rfl⟩
      · exact .inr (Position.eq_of_none rest captures none)
      · have nonempty := List.length_pos_iff.mpr some
        have long := congrArg List.length rest
        simp only [List.length_append] at long
        let mid : Position := ⟨v ++ after.rest, b ++ position.captures⟩
        have shorter : mid.rest.length < position.rest.length := by
          simp only [mid, List.length_append]
          omega
        refine .inl ⟨mid, ⟨spec.mpr ⟨u, b, first, by rw [rest, List.append_assoc], rfl⟩, shorter⟩,
          (ih (by omega)).mpr ⟨v, c, others, rfl, by rw [captures, List.append_assoc]⟩⟩

theorem mem_run : after ∈ run r position ↔ Steps r position after := by
  induction r generalizing position after with
  | char p =>
    obtain ⟨rest, captures⟩ := position
    cases rest with
    | nil => simp [run, Steps, reads_char]
    | cons c cs =>
      simp only [run, Steps, reads_char]
      constructor
      · intro member
        split at member
        next h =>
          obtain rfl := List.mem_singleton.mp member
          exact ⟨[c], [], ⟨c, h, rfl, rfl⟩, rfl, rfl⟩
        next => simp at member
      · rintro ⟨_, _, ⟨d, h, rfl, rfl⟩, rest, captures⟩
        obtain ⟨rfl, rfl⟩ := List.cons.inj rest
        rw [if_pos h, List.mem_singleton]
        exact Position.ext rfl captures
  | seq r s ihr ihs =>
    simp only [run, List.mem_flatMap, ihr, ihs]
    constructor
    · rintro ⟨mid, ⟨u, b, left, rest, captures⟩, v, c, right, rest', captures'⟩
      exact ⟨u ++ v, c ++ b, .seq left right, by rw [rest, rest', List.append_assoc],
        by rw [captures', captures, List.append_assoc]⟩
    · rintro ⟨w, a, reads, rest, captures⟩
      obtain ⟨u, v, b, c, left, right, rfl, rfl⟩ := reads_seq.mp reads
      exact ⟨⟨v ++ after.rest, b ++ position.captures⟩,
        ⟨u, b, left, by rw [rest, List.append_assoc], rfl⟩,
        ⟨v, c, right, rfl, by rw [captures, List.append_assoc]⟩⟩
  | alt r s ihr ihs =>
    simp only [run, List.mem_append, ihr, ihs, Steps, reads_alt]
    simp only [or_and_right, exists_or]
  | opt r ih =>
    simp only [run, List.mem_append, List.mem_singleton, ih]
    constructor
    · rintro (⟨w, a, reads, ends⟩ | rfl)
      · exact ⟨w, a, .optSome reads, ends⟩
      · exact .refl .optNone
    · rintro ⟨w, a, reads, rest, captures⟩
      rcases reads_opt.mp reads with reads | ⟨rfl, rfl⟩
      · exact .inl ⟨w, a, reads, rest, captures⟩
      · exact .inr (Position.ext rest.symm captures)
  | many r ih => exact mem_iterate ih (Nat.le_refl _)
  | group i r ih =>
    simp only [run, List.mem_map, ih]
    constructor
    · rintro ⟨mid, ⟨w, a, reads, rest, captures⟩, rfl⟩
      exact ⟨w, (i, w) :: a, .group reads, rest, by simp [rest, captures]⟩
    · rintro ⟨w, a, reads, rest, captures⟩
      obtain ⟨b, inner, rfl⟩ := reads_group.mp reads
      exact ⟨⟨after.rest, b ++ position.captures⟩, ⟨w, b, inner, rest, rfl⟩,
        Position.ext rfl (by simp [rest, captures])⟩

/-- A whole text is matched if the expression reads it, and with the captures of some reading. -/
theorem regexMatch_sound {text : List Char} (h : regexMatch r text = some a) : Reads r text a := by
  obtain ⟨position, found, rfl⟩ := Option.map_eq_some_iff.mp h
  obtain ⟨w, a, reads, rest, captures⟩ := mem_run.mp (List.mem_of_find?_eq_some found)
  have finished := List.find?_some found
  rw [List.isEmpty_iff.mp finished, List.append_nil] at rest
  obtain rfl : text = w := rest
  rw [captures, List.append_nil]
  exact reads

theorem regexMatch_eq_none {text : List Char} :
    regexMatch r text = none ↔ ∀ a, ¬Reads r text a := by
  constructor
  · intro h a reads
    rw [regexMatch, Option.map_eq_none_iff, List.find?_eq_none] at h
    exact h ⟨[], a⟩ (mem_run.mpr ⟨text, a, reads, by simp, by simp⟩) rfl
  · intro h
    cases hm : regexMatch r text with
    | none => rfl
    | some a => exact absurd (regexMatch_sound hm) (h a)

/-- Where there is one way to read a text, the match finds it. -/
theorem regexMatch_of_unique {text : List Char} (reads : Reads r text a)
    (unique : ∀ b, Reads r text b → b = a) : regexMatch r text = some a := by
  cases hm : regexMatch r text with
  | none => exact absurd reads (regexMatch_eq_none.mp hm a)
  | some b => rw [unique b (regexMatch_sound hm)]

/-- Repetition of one character. -/
theorem reads_many_char : Reads (.many (.char p)) w a ↔ (∀ c ∈ w, p c = true) ∧ a = [] := by
  induction w generalizing a with
  | nil =>
    rw [reads_many]
    constructor
    · rintro (⟨_, rfl⟩ | ⟨u, v, b, c, some, _, _, split, _⟩)
      · simp
      · exact absurd (List.append_eq_nil_iff.mp split.symm).1 some
    · rintro ⟨_, rfl⟩
      exact .inl ⟨rfl, rfl⟩
  | cons d w ih =>
    rw [reads_many]
    constructor
    · rintro (⟨none, _⟩ | ⟨u, v, b, c, _, first, others, split, rfl⟩)
      · simp at none
      · obtain ⟨e, h, rfl, rfl⟩ := reads_char.mp first
        obtain ⟨rfl, rfl⟩ := List.cons.inj split
        obtain ⟨all, rfl⟩ := ih.mp others
        exact ⟨List.forall_mem_cons.mpr ⟨h, all⟩, rfl⟩
    · rintro ⟨all, rfl⟩
      obtain ⟨h, all⟩ := List.forall_mem_cons.mp all
      exact .inr ⟨[d], w, [], [], by simp, .char h, ih.mpr ⟨all, rfl⟩, rfl, rfl⟩

theorem reads_plus_char : Reads (plus (.char p)) w a ↔
    w ≠ [] ∧ (∀ c ∈ w, p c = true) ∧ a = [] := by
  simp only [plus, reads_seq, reads_char, reads_many_char]
  constructor
  · rintro ⟨_, v, _, _, ⟨c, h, rfl, rfl⟩, ⟨all, rfl⟩, rfl, rfl⟩
    exact ⟨by simp, List.forall_mem_cons.mpr ⟨h, all⟩, rfl⟩
  · rintro ⟨some, all, rfl⟩
    obtain ⟨c, v, rfl⟩ := List.exists_cons_of_ne_nil some
    obtain ⟨h, all⟩ := List.forall_mem_cons.mp all
    exact ⟨[c], v, [], [], ⟨c, h, rfl, rfl⟩, ⟨all, rfl⟩, rfl, rfl⟩

theorem reads_literal {c : Char} {cs : List Char} :
    Reads (literal c cs) w a ↔ w = c :: cs ∧ a = [] := by
  induction cs generalizing c w a with
  | nil => simp [literal, reads_char]
  | cons d ds ih =>
    simp only [literal, reads_seq, reads_char, ih, beq_iff_eq]
    constructor
    · rintro ⟨_, _, _, _, ⟨_, rfl, rfl, rfl⟩, ⟨rfl, rfl⟩, rfl, rfl⟩
      exact ⟨rfl, rfl⟩
    · rintro ⟨rfl, rfl⟩
      exact ⟨[c], d :: ds, [], [], ⟨c, rfl, rfl, rfl⟩, ⟨rfl, rfl⟩, rfl, rfl⟩

end Regex

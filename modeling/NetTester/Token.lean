import Mathlib.Data.List.TakeWhile

namespace NetTester

/-- `isspace`, in the locale a program starts with. -/
def isSpace (c : Char) : Bool := c.toNat == 32 || (9 ≤ c.toNat && c.toNat ≤ 13)

/-- `in >> s`: the next word, and what is left. A stream of blanks alone fails. -/
def token (stream : List Char) : Option (List Char × List Char) :=
  match stream.dropWhile isSpace with
  | [] => none
  | c :: cs => some ((c :: cs).takeWhile (!isSpace ·), (c :: cs).dropWhile (!isSpace ·))

section

variable {α : Type} {p : α → Bool} {xs ys : List α}

theorem takeWhile_append_of_head (all : ∀ x ∈ xs, p x = true)
    (stop : ∀ y ∈ ys.head?, p y = false) : (xs ++ ys).takeWhile p = xs := by
  rw [List.takeWhile_append_of_pos all]
  cases ys with
  | nil => simp
  | cons y ys => simp [stop y rfl]

theorem dropWhile_append_of_head (all : ∀ x ∈ xs, p x = true)
    (stop : ∀ y ∈ ys.head?, p y = false) : (xs ++ ys).dropWhile p = ys := by
  rw [List.dropWhile_append_of_pos all]
  cases ys with
  | nil => rfl
  | cons y ys => simp [stop y rfl]

theorem not_mem_of_mem_splitOn [DecidableEq α] {x : α} (h : ys ∈ xs.splitOn x) : x ∉ ys := by
  induction xs generalizing ys with
  | nil =>
    rw [List.splitOn_nil, List.mem_singleton] at h
    simp [h]
  | cons y xs ih =>
    rw [List.splitOn_cons_eq_if_modifyHead] at h
    split at h
    next =>
      rcases List.mem_cons.mp h with rfl | later
      · simp
      · exact ih later
    next other =>
      obtain ⟨first, others, split⟩ := List.exists_cons_of_ne_nil (List.splitOn_ne_nil x xs)
      rw [split, List.modifyHead_cons] at h
      rcases List.mem_cons.mp h with rfl | later
      · intro member
        rcases List.mem_cons.mp member with rfl | inner
        · exact other (beq_self_eq_true _)
        · exact ih (split ▸ List.mem_cons_self) inner
      · exact ih (split ▸ List.mem_cons_of_mem _ later)

theorem head_dropWhile_eq_false : ∀ x ∈ (xs.dropWhile p).head?, p x = false := by
  intro x hx
  have stop := List.head?_dropWhile_not p xs
  rw [Option.mem_def.mp hx] at stop
  simpa using stop

end

/-- Blanks, a word, and a rest that starts at a blank if it is not empty. -/
structure Tokens (stream word rest : List Char) : Prop where
  split : ∃ blanks, (∀ c ∈ blanks, isSpace c = true) ∧ stream = blanks ++ (word ++ rest)
  nonempty : word ≠ []
  solid : ∀ c ∈ word, isSpace c = false
  stop : ∀ c ∈ rest.head?, isSpace c = true

theorem token_iff {stream word rest : List Char} :
    token stream = some (word, rest) ↔ Tokens stream word rest := by
  constructor
  · intro h
    unfold token at h
    have whole : stream.takeWhile isSpace ++ stream.dropWhile isSpace = stream :=
      List.takeWhile_append_dropWhile
    have start : ∀ c ∈ (stream.dropWhile isSpace).head?, isSpace c = false :=
      head_dropWhile_eq_false
    split at h
    next => simp at h
    next c cs later =>
      rw [later] at whole start
      obtain ⟨rfl, rfl⟩ := Prod.mk.inj (Option.some.inj h)
      have first : isSpace c = false := start c rfl
      refine ⟨⟨stream.takeWhile isSpace, fun c hc => List.mem_takeWhile_imp hc, ?_⟩, ?_,
        fun c hc => ?_, fun c hc => ?_⟩
      · rw [List.takeWhile_append_dropWhile, whole]
      · simp [first]
      · simpa using List.mem_takeWhile_imp hc
      · simpa using head_dropWhile_eq_false c hc
  · rintro ⟨⟨blanks, all, rfl⟩, nonempty, solid, stop⟩
    obtain ⟨c, cs, rfl⟩ := List.exists_cons_of_ne_nil nonempty
    have first : isSpace c = false := solid c List.mem_cons_self
    have word : ∀ d ∈ c :: cs, (!isSpace d) = true := fun d hd => by simp [solid d hd]
    have ends : ∀ d ∈ rest.head?, (!isSpace d) = false := fun d hd => by simp [stop d hd]
    have start : (blanks ++ (c :: cs ++ rest)).dropWhile isSpace = c :: cs ++ rest :=
      dropWhile_append_of_head all (by simpa using first)
    unfold token
    rw [start]
    simp only [List.cons_append]
    rw [← List.cons_append, takeWhile_append_of_head word ends, dropWhile_append_of_head word ends]

end NetTester

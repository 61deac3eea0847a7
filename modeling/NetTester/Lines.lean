import NetTester.Token

namespace NetTester

section

variable {α : Type} {read : List Char → Option (α × List Char)} {stream rest : List Char} {a : α}

/-- A loop that goes on until a read fails, where each read takes something off the stream. -/
def readAll (read : List Char → Option (α × List Char))
    (shorter : ∀ {stream a rest}, read stream = some (a, rest) → rest.length < stream.length)
    (stream : List Char) : List α :=
  match _h : read stream with
  | none => []
  | some (a, rest) => a :: readAll read shorter rest
termination_by stream.length
decreasing_by exact shorter _h

variable {shorter : ∀ {stream a rest}, read stream = some (a, rest) → rest.length < stream.length}

theorem readAll_of_none (h : read stream = none) : readAll read shorter stream = [] := by
  rw [readAll]
  split
  next => rfl
  next found =>
    rw [h] at found
    cases found

theorem readAll_of_some (h : read stream = some (a, rest)) :
    readAll read shorter stream = a :: readAll read shorter rest := by
  rw [readAll]
  split
  next missed =>
    rw [h] at missed
    cases missed
  next found =>
    rw [h] at found
    obtain ⟨rfl, rfl⟩ := Prod.mk.inj (Option.some.inj found)
    rfl

/-- Whatever the loop yields was read from some stream. -/
theorem exists_of_mem_readAll (h : a ∈ readAll read shorter stream) :
    ∃ stream rest, read stream = some (a, rest) := by
  induction stream using readAll.induct read shorter with
  | case1 stream missed =>
    rw [readAll_of_none missed] at h
    cases h
  | case2 stream first rest found ih =>
    rw [readAll_of_some found] at h
    rcases List.mem_cons.mp h with rfl | later
    · exact ⟨stream, rest, found⟩
    · exact ih later

end

/-- `std::getline`: what stands before the delimiter, which is dropped, and what is left. An empty
stream fails. -/
def getline (d : Char) (stream : List Char) : Option (List Char × List Char) :=
  if stream = [] then none
  else some (stream.takeWhile (· != d), (stream.dropWhile (· != d)).drop 1)

variable {d : Char} {stream line rest : List Char}

theorem getline_eq_some (h : getline d stream = some (line, rest)) :
    stream ≠ [] ∧ line = stream.takeWhile (· != d) ∧
      rest = (stream.dropWhile (· != d)).drop 1 := by
  unfold getline at h
  split at h
  next => cases h
  next nonempty =>
    obtain ⟨rfl, rfl⟩ := Prod.mk.inj (Option.some.inj h)
    exact ⟨nonempty, rfl, rfl⟩

theorem getline_length (h : getline d stream = some (line, rest)) :
    rest.length < stream.length := by
  obtain ⟨nonempty, rfl, rfl⟩ := getline_eq_some h
  have whole := congrArg List.length
    (List.takeWhile_append_dropWhile (p := (· != d)) (l := stream))
  have positive := List.length_pos_iff.mpr nonempty
  rw [List.length_append] at whole
  rw [List.length_drop]
  omega

/-- The loop `while (std::getline(in, line, d))`. -/
def lines (d : Char) (stream : List Char) : List (List Char) :=
  readAll (getline d) getline_length stream

theorem lines_nil : lines d [] = [] := readAll_of_none rfl

theorem ne_of_not_mem (absent : d ∉ line) : ∀ c ∈ line, (c != d) = true := by
  intro c member
  rw [bne_iff_ne]
  rintro rfl
  exact absent member

theorem lines_append_cons (absent : d ∉ line) :
    lines d (line ++ d :: rest) = line :: lines d rest := by
  apply readAll_of_some
  have head : ∀ c ∈ (d :: rest).head?, (c != d) = false := by simp
  rw [getline, if_neg (by simp), takeWhile_append_of_head (ne_of_not_mem absent) head,
    dropWhile_append_of_head (ne_of_not_mem absent) head, List.drop_succ_cons, List.drop_zero]

theorem lines_of_not_mem (absent : d ∉ line) (nonempty : line ≠ []) : lines d line = [line] := by
  have all := ne_of_not_mem absent
  have read : getline d line = some (line, []) := by
    rw [getline, if_neg nonempty, List.takeWhile_eq_self_iff.mpr all,
      List.dropWhile_eq_nil_iff.mpr all, List.drop_nil]
  exact (readAll_of_some read).trans (congrArg _ lines_nil)

theorem not_mem_of_mem_lines (h : line ∈ lines d stream) : d ∉ line := by
  obtain ⟨stream, rest, read⟩ := exists_of_mem_readAll h
  obtain ⟨_, rfl, _⟩ := getline_eq_some read
  intro member
  simpa using List.mem_takeWhile_imp member

/-- Lines that each end with the delimiter are read back. -/
theorem lines_flatMap {ls : List (List Char)} (absent : ∀ l ∈ ls, d ∉ l) :
    lines d (ls.flatMap (· ++ [d])) = ls := by
  induction ls with
  | nil => exact lines_nil
  | cons l ls ih =>
    obtain ⟨first, later⟩ := List.forall_mem_cons.mp absent
    rw [List.flatMap_cons, List.append_assoc, List.singleton_append, lines_append_cons first,
      ih later]

/-- Lines with the delimiter between each and the next are read back, unless the last is empty. -/
theorem lines_intercalate {ls : List (List Char)} (absent : ∀ l ∈ ls, d ∉ l)
    (last : ∀ l ∈ ls.getLast?, l ≠ []) : lines d ([d].intercalate ls) = ls := by
  induction ls with
  | nil => exact lines_nil
  | cons l ls ih =>
    obtain ⟨first, later⟩ := List.forall_mem_cons.mp absent
    cases ls with
    | nil =>
      rw [List.intercalate_singleton]
      exact lines_of_not_mem first (last l rfl)
    | cons l' ls =>
      rw [List.getLast?_cons_cons] at last
      rw [List.intercalate_cons_cons, List.append_assoc, List.singleton_append,
        lines_append_cons first, ih later last]

theorem token_length (h : token stream = some (line, rest)) : rest.length < stream.length := by
  obtain ⟨⟨blanks, _, split⟩, nonempty, _, _⟩ := token_iff.mp h
  have some := List.length_pos_iff.mpr nonempty
  rw [split, List.length_append, List.length_append]
  omega

/-- The words that an `istream_iterator` goes through. -/
def words (stream : List Char) : List (List Char) := readAll token token_length stream

theorem words_blank : words (' ' :: rest) = words rest := by
  have skip : token (' ' :: rest) = token rest := rfl
  unfold words
  cases h : token rest with
  | none => rw [readAll_of_none h, readAll_of_none (skip.trans h)]
  | some first =>
    obtain ⟨word, left⟩ := first
    rw [readAll_of_some h, readAll_of_some (skip.trans h)]

/-- Words with a blank between each and the next are read back. -/
theorem words_intercalate {ws : List (List Char)}
    (all : ∀ w ∈ ws, w ≠ [] ∧ ∀ c ∈ w, isSpace c = false) : words ([' '].intercalate ws) = ws := by
  induction ws with
  | nil => exact readAll_of_none rfl
  | cons w ws ih =>
    obtain ⟨⟨nonempty, solid⟩, later⟩ := List.forall_mem_cons.mp all
    cases ws with
    | nil =>
      have last : token w = some (w, []) :=
        token_iff.mpr ⟨⟨[], by simp, by simp⟩, nonempty, solid, by simp⟩
      rw [List.intercalate_singleton]
      exact (readAll_of_some last).trans (congrArg _ (readAll_of_none rfl))
    | cons w' ws =>
      have first : token (w ++ ' ' :: [' '].intercalate (w' :: ws)) =
          some (w, ' ' :: [' '].intercalate (w' :: ws)) :=
        token_iff.mpr ⟨⟨[], by simp, by simp⟩, nonempty, solid, by simp [isSpace]⟩
      rw [List.intercalate_cons_cons, List.append_assoc, List.singleton_append]
      refine (readAll_of_some first).trans (congrArg (w :: ·) ?_)
      exact words_blank.trans (ih later)

end NetTester

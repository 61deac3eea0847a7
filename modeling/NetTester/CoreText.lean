import NetTester.Cpu
import NetTester.RangeText

namespace NetTester

section

variable {α : Type}

/-- The loop of `operator>>` over the texts between the commas, from the `i`-th. Each range begins
with bounds that nobody has written. -/
def readRanges (read : α → List Char → Except String α) (unwritten : Nat → α × α) :
    Nat → List (List Char) → Except String (List (Range α))
  | _, [] => .ok []
  | i, text :: others =>
    (extractRange read (unwritten i).1 (unwritten i).2 text).bind fun (range, _) =>
      (readRanges read unwritten (i + 1) others).map (range :: ·)

/-- `operator>>` of a list of ranges, with what it leaves in the stream. -/
def extractRanges (read : α → List Char → Except String α) (unwritten : Nat → α × α)
    (stream : List Char) : Except String (Ranges α × Option (List Char)) :=
  (readRanges read unwritten 0 (lines ',' (word stream))).map fun value =>
    (⟨value⟩, (token stream).map Prod.snd)

def insertRange [DecidableEq α] (print : α → List Char) (range : Range α) : List Char :=
  print range.low ++ if range.low ≠ range.high then '-' :: print range.high else []

/-- The loop of `operator<<`. -/
def insertFrom [DecidableEq α] (print : α → List Char) : Bool → List (Range α) → List Char
  | _, [] => []
  | first, range :: others =>
    (if first then [',', ' '] else []) ++ insertRange print range ++ insertFrom print false others

def insertRanges [DecidableEq α] (print : α → List Char) (ranges : Ranges α) : List Char :=
  insertFrom print true ranges.value

end

/-- `operator>>` of an `unsigned int`, on a stream of its own: a minus wraps, a number that is too
large becomes the largest, a text without a number becomes zero, and an empty stream leaves what
was there. -/
def extractCore (old : CpuCoreId) (text : List Char) : CpuCoreId :=
  match text.dropWhile isSpace with
  | [] => old
  | c :: cs =>
    let digits := (if c = '-' ∨ c = '+' then cs else c :: cs).takeWhile Char.isDigit
    if decimalValue digits < 2 ^ 32 then
      if c = '-' then 0 - UInt32.ofNat (decimalValue digits)
      else UInt32.ofNat (decimalValue digits)
    else UInt32.ofNat (2 ^ 32 - 1)

def readCore (old : CpuCoreId) (text : List Char) : Except String CpuCoreId :=
  .ok (extractCore old text)

def printCore (core : CpuCoreId) : List Char := Nat.toDigits 10 core.toNat

/-- `operator>>` for the ranges of `--cpu-cores`. -/
def extractCores (unwritten : Nat → CpuCoreId × CpuCoreId) (stream : List Char) :
    Except String (CpuCoreIdRanges × Option (List Char)) :=
  extractRanges readCore unwritten stream

def Decimal (digits : List Char) : Prop := digits ≠ [] ∧ ∀ c ∈ digits, c.isDigit = true

/-- A decimal number, or two with a dash, and the interval it means. -/
inductive CoreToken : List Char → Nat → Nat → Prop
  | one {digits : List Char} : Decimal digits → decimalValue digits < 2 ^ 32 →
      CoreToken digits (decimalValue digits) (decimalValue digits)
  | two {low high : List Char} : Decimal low → Decimal high →
      decimalValue low ≤ decimalValue high → decimalValue high < 2 ^ 32 →
      CoreToken (low ++ '-' :: high) (decimalValue low) (decimalValue high)

section

variable {digits text : List Char} {a b : Nat} {old low high : CpuCoreId}
  {unwritten : Nat → CpuCoreId × CpuCoreId}

theorem Decimal.not_mem (h : Decimal digits) {c : Char} (other : c.isDigit = false) :
    c ∉ digits := by
  intro member
  rw [h.2 c member] at other
  cases other

theorem extractCore_decimal (h : Decimal digits) (bound : decimalValue digits < 2 ^ 32) :
    extractCore old digits = UInt32.ofNat (decimalValue digits) := by
  obtain ⟨c, cs, rfl⟩ := List.exists_cons_of_ne_nil h.1
  have digit := h.2 c List.mem_cons_self
  have start : (c :: cs).dropWhile isSpace = c :: cs := by
    simp [isSpace_of_isDigit digit]
  have unsigned : ¬(c = '-' ∨ c = '+') := by
    rintro (rfl | rfl) <;> cases digit
  have positive : c ≠ '-' := fun minus => unsigned (.inl minus)
  unfold extractCore
  rw [start]
  simp only [if_neg unsigned, if_neg positive, List.takeWhile_eq_self_iff.mpr h.2, if_pos bound]

theorem readBounds_coreToken (low high : CpuCoreId) (h : CoreToken text a b) :
    readBounds readCore low high text = .ok ⟨UInt32.ofNat a, UInt32.ofNat b⟩ := by
  cases h with
  | one decimal bound =>
    rw [readBounds_single (decimal.not_mem rfl), readCore, extractCore_decimal decimal bound]
    rfl
  | two decimal decimal' ordered bound =>
    rw [readBounds_cut (decimal.not_mem rfl), readCore, readCore,
      extractCore_decimal decimal (Nat.lt_of_le_of_lt ordered bound),
      extractCore_decimal decimal' bound]
    rfl

theorem CoreToken.mem (h : CoreToken text a b) {c : Char} (member : c ∈ text) :
    c.isDigit = true ∨ c = '-' := by
  cases h with
  | one decimal => exact .inl (decimal.2 c member)
  | two decimal decimal' =>
    rcases List.mem_append.mp member with digit | member
    · exact .inl (decimal.2 c digit)
    · rcases List.mem_cons.mp member with rfl | digit
      · exact .inr rfl
      · exact .inl (decimal'.2 c digit)

theorem CoreToken.solid (h : CoreToken text a b) : ∀ c ∈ text, isSpace c = false := by
  intro c member
  rcases h.mem member with digit | rfl
  · exact isSpace_of_isDigit digit
  · rfl

theorem CoreToken.comma (h : CoreToken text a b) : ',' ∉ text := by
  intro member
  rcases h.mem member with digit | dash
  · cases digit
  · cases dash

theorem CoreToken.ne_nil (h : CoreToken text a b) : text ≠ [] := by
  cases h with
  | one decimal => exact decimal.1
  | two => simp

theorem CoreToken.bounds (h : CoreToken text a b) : a ≤ b ∧ b < 2 ^ 32 := by
  cases h with
  | one _ bound => exact ⟨Nat.le_refl _, bound⟩
  | two _ _ ordered bound => exact ⟨ordered, bound⟩

theorem CoreToken.toNat (h : CoreToken text a b) :
    (UInt32.ofNat a).toNat = a ∧ (UInt32.ofNat b).toNat = b := by
  have bounds := h.bounds
  exact ⟨UInt32.toNat_ofNat_of_lt' (Nat.lt_of_le_of_lt bounds.1 bounds.2),
    UInt32.toNat_ofNat_of_lt' bounds.2⟩

theorem CoreToken.unique (h : CoreToken text a b) {a' b' : Nat} (h' : CoreToken text a' b') :
    a' = a ∧ b' = b := by
  have same : (⟨UInt32.ofNat a', UInt32.ofNat b'⟩ : Range CpuCoreId) =
      ⟨UInt32.ofNat a, UInt32.ofNat b⟩ :=
    Except.ok.inj ((readBounds_coreToken 0 0 h').symm.trans
      (readBounds_coreToken 0 0 h))
  obtain ⟨low, high⟩ := Range.mk.inj same
  rw [← h.toNat.1, ← h.toNat.2, ← h'.toNat.1, ← h'.toNat.2, low, high]
  exact ⟨rfl, rfl⟩

theorem extractRange_coreToken (low high : CpuCoreId) (h : CoreToken text a b) :
    extractRange readCore low high text = .ok (⟨UInt32.ofNat a, UInt32.ofNat b⟩, some []) := by
  rw [extractRange_word h.ne_nil h.solid, readBounds_coreToken _ _ h]
  rfl

theorem CoreToken.has (h : CoreToken text a b) (core : CpuCoreId) :
    Range.Has ⟨UInt32.ofNat a, UInt32.ofNat b⟩ core ↔ a ≤ core.toNat ∧ core.toNat ≤ b := by
  rw [Range.Has, UInt32.le_iff_toNat_le, UInt32.le_iff_toNat_le, h.toNat.1, h.toNat.2]

/-- A core that some token asks for. -/
def Requested (tokens : List (List Char)) (core : CpuCoreId) : Prop :=
  ∃ token ∈ tokens, ∃ a b, CoreToken token a b ∧ a ≤ core.toNat ∧ core.toNat ≤ b

theorem requested_cons {tokens : List (List Char)} {core : CpuCoreId}
    (h : CoreToken text a b) : Requested (text :: tokens) core ↔
      (a ≤ core.toNat ∧ core.toNat ≤ b) ∨ Requested tokens core := by
  unfold Requested
  rw [List.exists_mem_cons_iff]
  apply or_congr_left
  constructor
  · rintro ⟨a', b', h', inside⟩
    obtain ⟨rfl, rfl⟩ := h.unique h'
    exact inside
  · intro inside
    exact ⟨a, b, h, inside⟩

theorem readRanges_tokens (unwritten : Nat → CpuCoreId × CpuCoreId) {tokens : List (List Char)}
    (each : ∀ token ∈ tokens, ∃ a b, CoreToken token a b) (i : Nat) :
    ∃ ranges, readRanges readCore unwritten i tokens = .ok ranges ∧
      (∀ range ∈ ranges, range.low ≤ range.high) ∧
      ∀ core, (∃ range ∈ ranges, range.Has core) ↔ Requested tokens core := by
  induction tokens generalizing i with
  | nil => exact ⟨[], rfl, by simp, by simp [Requested]⟩
  | cons text tokens ih =>
    obtain ⟨⟨a, b, token⟩, each⟩ := List.forall_mem_cons.mp each
    obtain ⟨ranges, read, ordered, has⟩ := ih each (i + 1)
    refine ⟨⟨UInt32.ofNat a, UInt32.ofNat b⟩ :: ranges, ?_, ?_, fun core => ?_⟩
    · have first := extractRange_coreToken (unwritten i).1 (unwritten i).2 token
      exact bind_eq_ok.mpr ⟨_, first, map_eq_ok.mpr ⟨ranges, read, rfl⟩⟩
    · refine List.forall_mem_cons.mpr ⟨?_, ordered⟩
      rw [UInt32.le_iff_toNat_le, token.toNat.1, token.toNat.2]
      exact token.bounds.1
    · rw [List.exists_mem_cons_iff, has, token.has, requested_cons token]

theorem mem_toCpuCoreList {ranges : CpuCoreIdRanges} {core : CpuCoreId}
    (ordered : ∀ range ∈ ranges.value, range.low ≤ range.high) :
    core ∈ toCpuCoreList ranges ↔ ∃ range ∈ ranges.value, range.Has core := by
  rw [toCpuCoreList, Ranges.asSequence, mem_destutter, List.mem_flatMap]
  exact exists_congr fun range => and_congr_right fun member =>
    Range.mem_asSequence (ordered range member)

/-- The text of a list of tokens. -/
def tokensText (tokens : List (List Char)) : List Char := [','].intercalate tokens

theorem tokensText_ne_nil {tokens : List (List Char)} (nonempty : tokens ≠ [])
    (each : ∀ token ∈ tokens, ∃ a b, CoreToken token a b) : tokensText tokens ≠ [] := by
  obtain ⟨text, others, rfl⟩ := List.exists_cons_of_ne_nil nonempty
  obtain ⟨a, b, token⟩ := each text List.mem_cons_self
  unfold tokensText
  cases others with
  | nil => simpa using token.ne_nil
  | cons => simp [List.intercalate_cons_cons]

theorem mem_intercalate {ls : List (List Char)} {d c : Char}
    (member : c ∈ [d].intercalate ls) : c = d ∨ ∃ l ∈ ls, c ∈ l := by
  induction ls with
  | nil => cases member
  | cons l ls ih =>
    cases ls with
    | nil => exact .inr ⟨l, by simp, by simpa using member⟩
    | cons l' ls =>
      rw [List.intercalate_cons_cons, List.append_assoc, List.mem_append,
        List.singleton_append, List.mem_cons] at member
      rcases member with first | rfl | later
      · exact .inr ⟨l, by simp, first⟩
      · exact .inl rfl
      · exact (ih later).imp_right fun ⟨other, h, inner⟩ => ⟨other, by simp [h], inner⟩

theorem tokensText_solid {tokens : List (List Char)}
    (each : ∀ token ∈ tokens, ∃ a b, CoreToken token a b) :
    ∀ c ∈ tokensText tokens, isSpace c = false := by
  intro c member
  rcases mem_intercalate member with rfl | ⟨text, inside, inner⟩
  · rfl
  · obtain ⟨a, b, token⟩ := each text inside
    exact token.solid c inner

theorem lines_tokensText {tokens : List (List Char)}
    (each : ∀ token ∈ tokens, ∃ a b, CoreToken token a b) :
    lines ',' (tokensText tokens) = tokens := by
  apply lines_intercalate
  · intro text member
    obtain ⟨a, b, token⟩ := each text member
    exact token.comma
  · intro text last
    obtain ⟨a, b, token⟩ := each text (List.mem_of_getLast? last)
    exact token.ne_nil

/-- The cores of a list of tokens are those that its tokens ask for, whatever the variables hold
into which they are read. -/
theorem extractCores_requested (unwritten : Nat → CpuCoreId × CpuCoreId)
    {tokens : List (List Char)} (nonempty : tokens ≠ [])
    (each : ∀ token ∈ tokens, ∃ a b, CoreToken token a b) :
    ∃ ranges, extractCores unwritten (tokensText tokens) = .ok (ranges, some []) ∧
      ∀ core, core ∈ toCpuCoreList ranges ↔ Requested tokens core := by
  have solid := tokensText_solid each
  obtain ⟨ranges, read, ordered, has⟩ := readRanges_tokens unwritten each 0
  refine ⟨⟨ranges⟩, ?_, fun core => (mem_toCpuCoreList ordered).trans (has core)⟩
  rw [extractCores, extractRanges, word_eq solid, lines_tokensText each, read,
    token_word (tokensText_ne_nil nonempty each) solid]
  rfl

theorem coreTokens_two : ∀ token ∈ [['0', '-', '2'], ['5']], ∃ a b, CoreToken token a b := by
  have digit : ∀ c, c.isDigit = true → Decimal [c] := by simp [Decimal]
  refine List.forall_mem_cons.mpr ⟨⟨0, 2, ?_⟩, List.forall_mem_cons.mpr ⟨⟨5, 5, ?_⟩, by simp⟩⟩
  · exact .two (digit '0' rfl) (digit '2' rfl) (by decide) (by decide)
  · exact .one (digit '5' rfl) (by decide)

/-- `0-2,5`. -/
theorem extractCores_requested_two : ∃ ranges,
    extractCores (fun _ => (7, 7)) (tokensText [['0', '-', '2'], ['5']]) = .ok (ranges, some []) ∧
      ∀ core, core ∈ toCpuCoreList ranges ↔ Requested [['0', '-', '2'], ['5']] core :=
  extractCores_requested _ (by simp) coreTokens_two

/-- A comma-separated list of one token or more. -/
def CoreList (s : List Char) : Prop :=
  ∃ tokens, tokens ≠ [] ∧ (∀ token ∈ tokens, ∃ a b, CoreToken token a b) ∧ s = tokensText tokens

/-- Lists of tokens are extracted, and every other text fails. -/
def CoresChecked (unwritten : Nat → CpuCoreId × CpuCoreId) (s : List Char) : Prop :=
  (∃ ranges, extractCores unwritten s = .ok (ranges, some [])) ↔ CoreList s

theorem readRanges_succeeds (unwritten : Nat → CpuCoreId × CpuCoreId) (i : Nat)
    (texts : List (List Char)) :
    ∃ ranges, readRanges readCore unwritten i texts = .ok ranges := by
  induction texts generalizing i with
  | nil => exact ⟨[], rfl⟩
  | cons text texts ih =>
    obtain ⟨ranges, read⟩ := ih (i + 1)
    have first : ∃ read, extractRange readCore (unwritten i).1 (unwritten i).2 text = .ok read := by
      unfold extractRange readBounds readCore
      simp only [Except.bind]
      split <;> exact ⟨_, rfl⟩
    obtain ⟨range, first⟩ := first
    exact ⟨range.1 :: ranges, bind_eq_ok.mpr ⟨range, first, map_eq_ok.mpr ⟨ranges, read, rfl⟩⟩⟩

theorem extractCores_succeeds {s : List Char} (nonempty : s ≠ [])
    (solid : ∀ c ∈ s, isSpace c = false) :
    ∃ ranges, extractCores unwritten s = .ok (ranges, some []) := by
  obtain ⟨ranges, read⟩ := readRanges_succeeds unwritten 0 (lines ',' s)
  refine ⟨⟨ranges⟩, ?_⟩
  rw [extractCores, extractRanges, word_eq solid, read, token_word nonempty solid]
  rfl

/-- No text fails, so only lists of tokens are treated as they should be. -/
theorem coresChecked_iff (unwritten : Nat → CpuCoreId × CpuCoreId) {s : List Char}
    (nonempty : s ≠ []) (solid : ∀ c ∈ s, isSpace c = false) :
    CoresChecked unwritten s ↔ CoreList s := by
  unfold CoresChecked
  rw [iff_true_left (extractCores_succeeds nonempty solid)]

theorem coresChecked_two : CoresChecked (fun _ => (7, 7)) ['0', '-', '2', ',', '5'] :=
  (coresChecked_iff _ (by simp) (by simp [isSpace])).mpr
    ⟨[['0', '-', '2'], ['5']], by simp, coreTokens_two, rfl⟩

theorem readBounds_five_two : readBounds readCore low high ['5', '-', '2'] = .ok ⟨5, 2⟩ := by
  rw [← List.singleton_append, readBounds_cut (by simp)]
  rfl

theorem extractCores_five_two :
    extractCores unwritten ['5', '-', '2'] = .ok (⟨[⟨5, 2⟩]⟩, some []) := by
  have solid : ∀ c ∈ ['5', '-', '2'], isSpace c = false := by simp [isSpace]
  rw [extractCores, extractRanges, word_eq solid, lines_of_not_mem (by simp) (by simp), readRanges,
    extractRange_word (by simp) solid, readBounds_five_two]
  rfl

theorem not_coreList_five_two : ¬CoreList ['5', '-', '2'] := by
  rintro ⟨tokens, nonempty, each, split⟩
  have one := lines_tokensText each
  rw [← split, lines_of_not_mem (by simp) (by simp)] at one
  subst one
  obtain ⟨a, b, token⟩ := each _ List.mem_cons_self
  have read := readBounds_coreToken 0 0 token
  rw [readBounds_five_two] at read
  obtain ⟨low, high⟩ := Range.mk.inj (Except.ok.inj read)
  have first : a = 5 := by rw [← token.toNat.1, ← low]; rfl
  have second : b = 2 := by rw [← token.toNat.2, ← high]; rfl
  have ordered := token.bounds.1
  omega

/-- `5-2` is extracted: its cores go up from the fifth and around to the second. -/
theorem cores_reversed :
    extractCores (fun _ => (0, 0)) ['5', '-', '2'] = .ok (⟨[⟨5, 2⟩]⟩, some []) ∧
      ¬CoresChecked (fun _ => (0, 0)) ['5', '-', '2'] :=
  ⟨extractCores_five_two, fun checked =>
    not_coreList_five_two (checked.mp ⟨_, extractCores_five_two⟩)⟩

/-- What is written is read back, whatever the variables hold into which it is read. -/
def ReadsBack (ranges : List (Range CpuCoreId)) : Prop :=
  ∀ unwritten, ∃ rest, extractCores unwritten (insertRanges printCore ⟨ranges⟩) =
    .ok (⟨ranges⟩, rest)

/-- The separator stands before the first range and before no other. What is read of a text is the
comma alone, so the list that is read is one range that was never written. -/
theorem extractCores_insertRanges (unwritten : Nat → CpuCoreId × CpuCoreId)
    (range : Range CpuCoreId) (others : List (Range CpuCoreId)) :
    ∃ rest, extractCores unwritten (insertRanges printCore ⟨range :: others⟩) =
      .ok (⟨[⟨(unwritten 0).1, (unwritten 0).1⟩]⟩, rest) := by
  have first : token (insertRanges printCore ⟨range :: others⟩) =
      some ([','], ' ' :: (insertRange printCore range ++ insertFrom printCore false others)) :=
    token_iff.mpr ⟨⟨[], by simp, rfl⟩, by simp, by simp [isSpace], by simp [isSpace]⟩
  have text : lines ',' [','] = [[]] := by
    rw [← List.nil_append [','], lines_append_cons (by simp), lines_nil]
  rw [extractCores, extractRanges, word, first]
  simp only [Option.map_some, Option.getD_some, text]
  exact ⟨_, rfl⟩

theorem ReadsBack.first {range : Range CpuCoreId} {others : List (Range CpuCoreId)}
    (back : ReadsBack (range :: others)) (core : CpuCoreId) : core = range.low := by
  let unwritten : Nat → CpuCoreId × CpuCoreId := fun _ => (core, core)
  obtain ⟨rest, read⟩ := back unwritten
  obtain ⟨rest', read'⟩ := extractCores_insertRanges unwritten range others
  rw [read] at read'
  have lists := congrArg (fun r => r.1.value) (Except.ok.inj read')
  exact congrArg Range.low (List.cons.inj lists).1.symm

/-- No list that is written is read back. -/
theorem not_readsBack (range : Range CpuCoreId) (others : List (Range CpuCoreId)) :
    ¬ReadsBack (range :: others) := by
  intro back
  have next := back.first (range.low + 1)
  simp at next

theorem not_readsBack_one_two :
    insertRanges printCore ⟨[⟨1, 2⟩, ⟨4, 4⟩]⟩ = [',', ' ', '1', '-', '2', '4'] ∧
      ¬ReadsBack [⟨1, 2⟩, ⟨4, 4⟩] :=
  ⟨rfl, fun back => absurd (back.first 0) (by decide)⟩

end

end NetTester

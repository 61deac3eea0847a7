import NetTester.Lines
import NetTester.SizeReading

namespace NetTester

section

variable {ε α β : Type} {x : Except ε α} {b : β}

theorem bind_eq_ok {f : α → Except ε β} : x.bind f = .ok b ↔ ∃ a, x = .ok a ∧ f a = .ok b := by
  cases x with
  | error e => simp [Except.bind]
  | ok a => simp [Except.bind]

theorem map_eq_ok {f : α → β} : x.map f = .ok b ↔ ∃ a, x = .ok a ∧ f a = b := by
  cases x with
  | error e => simp [Except.map]
  | ok a => simp [Except.map]

end

section

variable {α : Type}

/-- What `in >> s` puts in an empty `s`. -/
def word (stream : List Char) : List Char := ((token stream).map Prod.fst).getD []

/-- The bounds of a text, which is cut at its first dash. They come with the values that they have
before they are read. Each is read from a stream of its own, whose state nobody looks at:
`read old text` is what is in a variable afterwards. -/
def readBounds (read : α → List Char → Except String α) (low high : α) (s : List Char) :
    Except String (Range α) :=
  (read low (s.takeWhile (· != '-'))).bind fun low =>
    if '-' ∈ s then (read high ((s.dropWhile (· != '-')).drop 1)).map fun high => ⟨low, high⟩
    else .ok ⟨low, low⟩

/-- `operator>>`, with what it leaves in the stream, or `none` where the stream fails. -/
def extractRange (read : α → List Char → Except String α) (low high : α) (stream : List Char) :
    Except String (Range α × Option (List Char)) :=
  (readBounds read low high (word stream)).map fun range => (range, (token stream).map Prod.snd)

variable {read : α → List Char → Except String α} {low high : α} {s first second : List Char}

theorem token_word (nonempty : s ≠ []) (solid : ∀ c ∈ s, isSpace c = false) :
    token s = some (s, []) :=
  token_iff.mpr ⟨⟨[], by simp⟩, nonempty, solid, by simp⟩

theorem word_eq (solid : ∀ c ∈ s, isSpace c = false) : word s = s := by
  by_cases empty : s = []
  · rw [empty]
    rfl
  · rw [word, token_word empty solid]
    rfl

theorem extractRange_word (nonempty : s ≠ []) (solid : ∀ c ∈ s, isSpace c = false) :
    extractRange read low high s =
      (readBounds read low high s).map fun range => (range, some []) := by
  rw [extractRange, word_eq solid, token_word nonempty solid]
  rfl

theorem solid_cut (solid : ∀ c ∈ first ++ '-' :: second, isSpace c = false) :
    (∀ c ∈ first, isSpace c = false) ∧ ∀ c ∈ second, isSpace c = false :=
  ⟨fun c member => solid c (List.mem_append_left _ member), fun c member =>
    solid c (List.mem_append_right _ (List.mem_cons_of_mem _ member))⟩

theorem readBounds_single (absent : '-' ∉ s) :
    readBounds read low high s = (read low s).map fun bound => ⟨bound, bound⟩ := by
  rw [readBounds, List.takeWhile_eq_self_iff.mpr (ne_of_not_mem absent)]
  cases read low s with
  | error e => rfl
  | ok bound => exact if_neg absent

theorem readBounds_cut (absent : '-' ∉ first) :
    readBounds read low high (first ++ '-' :: second) =
      (read low first).bind fun low => (read high second).map fun high => ⟨low, high⟩ := by
  have head : ∀ c ∈ ('-' :: second).head?, (c != '-') = false := by simp
  rw [readBounds, takeWhile_append_of_head (ne_of_not_mem absent) head,
    dropWhile_append_of_head (ne_of_not_mem absent) head, List.drop_succ_cons, List.drop_zero]
  simp only [List.mem_append, List.mem_cons, true_or, or_true, if_true]

/-- The first dash cuts a text in one way. -/
theorem cut_unique {first' second' : List Char} (absent : '-' ∉ first) (absent' : '-' ∉ first')
    (same : first ++ '-' :: second = first' ++ '-' :: second') :
    first = first' ∧ second = second' := by
  have head : ∀ w : List Char, ∀ c ∈ ('-' :: w).head?, (c != '-') = false := by simp
  have before := congrArg (List.takeWhile (· != '-')) same
  have after := congrArg (List.dropWhile (· != '-')) same
  rw [takeWhile_append_of_head (ne_of_not_mem absent) (head _),
    takeWhile_append_of_head (ne_of_not_mem absent') (head _)] at before
  rw [dropWhile_append_of_head (ne_of_not_mem absent) (head _),
    dropWhile_append_of_head (ne_of_not_mem absent') (head _)] at after
  exact ⟨before, (List.cons.inj after).2⟩

end

/-- A size that is extracted from a stream of its own: an empty one leaves what was there. -/
def readSize (old : Size) (text : List Char) : Except String Size :=
  (extractSize text).map fun read => (read.map Prod.fst).getD old

/-- The texts of a range, and the range that each means. -/
inductive WrittenRange : List Char → Range Size → Prop
  | single {s : List Char} {bound : Size} : parseSize s = .ok bound → WrittenRange s ⟨bound, bound⟩
  | two {first second : List Char} {low high : Size} : parseSize first = .ok low →
      parseSize second = .ok high → low.value ≤ high.value →
      WrittenRange (first ++ '-' :: second) ⟨low, high⟩

/-- `operator>>` for the range of `--max-datagram-size`. A size is zero before it is read. -/
def extractPacketSize (stream : List Char) : Except String (Range Size × Option (List Char)) :=
  extractRange readSize .zero .zero stream

/-- The texts of ranges are accepted with the bounds they mean, and no other, so that the bounds of
every accepted range are ordered. -/
def PacketSizeExact (s : List Char) : Prop :=
  (∀ range, WrittenRange s range → extractPacketSize s = .ok (range, some [])) ∧
  ((∀ range, ¬WrittenRange s range) → ∃ error, extractPacketSize s = .error error) ∧
  ∀ range rest, extractPacketSize s = .ok (range, rest) → range.low.value ≤ range.high.value

/-- One of the bounds is missing, or they are reversed. -/
def Lenient (s : List Char) : Prop :=
  ∃ first second, '-' ∉ first ∧ s = first ++ '-' :: second ∧
    (first = [] ∨ ∃ low, parseSize first = .ok low) ∧
    (second = [] ∨ ∃ high, parseSize second = .ok high) ∧
    ∀ low high, parseSize first = .ok low → parseSize second = .ok high → high.value < low.value

section

variable {s first second : List Char}

theorem readSize_nil (old : Size) : readSize old [] = .ok old := rfl

theorem readSize_eq (old : Size) (nonempty : s ≠ []) (solid : ∀ c ∈ s, isSpace c = false) :
    readSize old s = parseSize s := by
  unfold readSize extractSize
  rw [token_word nonempty solid]
  cases hs : parseSize s <;> simp only [hs] <;> rfl

theorem SizeText.dash_not_mem (t : SizeText) : '-' ∉ t.text := by
  have letters : ∀ system : UnitSystem, '-' ∉ system.letters := by
    intro system
    cases system <;> decide
  intro member
  rcases List.mem_append.mp member with digit | member
  · exact absurd (t.decimal _ digit) (by decide)
  rcases List.mem_append.mp member with scale | unit
  · cases hs : t.scale with
    | none => simp [scaleText, hs] at scale
    | some scale' =>
      have named : scale'.letter ≠ '-' := fun same => letters scale'.system (same ▸ scale'.allowed)
      simp only [scaleText, hs, Option.map_some, Option.getD_some, SizeScale.text] at scale
      split at scale <;> simp [named.symm] at scale
  · cases hu : t.unit <;> simp [hu, SizeUnit.text] at unit

theorem dash_not_mem_of_parseSize {size : Size} (solid : ∀ c ∈ s, isSpace c = false)
    (h : parseSize s = .ok size) : '-' ∉ s := by
  obtain ⟨t, rfl⟩ := text_of_parseSize solid h
  exact t.dash_not_mem

theorem parseSize_nil (size : Size) : parseSize [] ≠ .ok size := by
  intro h
  obtain ⟨t, empty⟩ := text_of_parseSize (by simp) h
  exact t.nonempty (List.append_eq_nil_iff.mp empty.symm).1

theorem writtenRange_single {range : Range Size} (absent : '-' ∉ s) :
    WrittenRange s range ↔ ∃ bound, parseSize s = .ok bound ∧ range = ⟨bound, bound⟩ := by
  constructor
  · intro h
    cases h with
    | single read => exact ⟨_, read, rfl⟩
    | two => simp at absent
  · rintro ⟨bound, read, rfl⟩
    exact .single read

theorem writtenRange_cut {range : Range Size} (absent : '-' ∉ first)
    (solid : ∀ c ∈ first ++ '-' :: second, isSpace c = false) :
    WrittenRange (first ++ '-' :: second) range ↔
      ∃ low high, parseSize first = .ok low ∧ parseSize second = .ok high ∧
        low.value ≤ high.value ∧ range = ⟨low, high⟩ := by
  constructor
  · intro h
    generalize same : first ++ '-' :: second = s at h
    cases h with
    | single read =>
      rw [← same] at read
      exact absurd (by simp) (dash_not_mem_of_parseSize solid read)
    | @two first' _ _ _ read read' ordered =>
      have absent' : '-' ∉ first' :=
        dash_not_mem_of_parseSize (solid_cut (same ▸ solid)).1 read
      obtain ⟨rfl, rfl⟩ := cut_unique absent absent' same
      exact ⟨_, _, read, read', ordered, rfl⟩
  · rintro ⟨low, high, read, read', ordered, rfl⟩
    exact .two read read' ordered

theorem WrittenRange.ordered {range : Range Size} (h : WrittenRange s range) :
    range.low.value ≤ range.high.value := by
  cases h with
  | single => exact Nat.le_refl _
  | two _ _ ordered => exact ordered

theorem extractPacketSize_eq_ok (nonempty : s ≠ []) (solid : ∀ c ∈ s, isSpace c = false)
    {range : Range Size} {rest : Option (List Char)} :
    extractPacketSize s = .ok (range, rest) ↔
      readBounds readSize .zero .zero s = .ok range ∧ rest = some [] := by
  rw [extractPacketSize, extractRange_word nonempty solid, map_eq_ok]
  simp only [Prod.mk.injEq]
  constructor
  · rintro ⟨read, h, rfl, rfl⟩
    exact ⟨h, rfl⟩
  · rintro ⟨h, rfl⟩
    exact ⟨range, h, rfl, rfl⟩

/-- What is read has to be what is written. -/
theorem packetSizeExact_iff_read (nonempty : s ≠ []) (solid : ∀ c ∈ s, isSpace c = false) :
    PacketSizeExact s ↔
      ∀ range, readBounds readSize .zero .zero s = .ok range ↔ WrittenRange s range := by
  unfold PacketSizeExact
  simp only [extractPacketSize_eq_ok nonempty solid]
  constructor
  · rintro ⟨accepts, rejects, _⟩ range
    refine ⟨fun read => ?_, fun written => (accepts range written).1⟩
    by_contra unwritten
    have none : ∀ other, ¬WrittenRange s other := by
      intro other written
      have same := (accepts other written).1
      rw [read] at same
      cases same
      exact unwritten written
    obtain ⟨error, failed⟩ := rejects none
    rw [extractPacketSize, extractRange_word nonempty solid, read] at failed
    cases failed
  · intro exact
    refine ⟨fun range written => ⟨(exact range).mpr written, trivial⟩, fun none => ?_,
      fun range _ read => ((exact range).mp read.1).ordered⟩
    rw [extractPacketSize, extractRange_word nonempty solid]
    cases read : readBounds readSize .zero .zero s with
    | error e => exact ⟨e, rfl⟩
    | ok range => exact absurd ((exact range).mp read) (none range)

theorem readBounds_cut_eq_ok (absent : '-' ∉ first) {range : Range Size} :
    readBounds readSize .zero .zero (first ++ '-' :: second) = .ok range ↔
      ∃ low high, readSize .zero first = .ok low ∧ readSize .zero second = .ok high ∧
        range = ⟨low, high⟩ := by
  rw [readBounds_cut absent, bind_eq_ok]
  simp only [map_eq_ok, exists_and_left, eq_comm (a := range)]

theorem readSize_eq_ok {old size : Size} (solid : ∀ c ∈ s, isSpace c = false) :
    readSize old s = .ok size ↔ parseSize s = .ok size ∨ s = [] ∧ old = size := by
  by_cases empty : s = []
  · subst s
    rw [readSize_nil, Except.ok.injEq]
    exact ⟨fun same => .inr ⟨rfl, same⟩, fun read =>
      (read.resolve_left (parseSize_nil size)).2⟩
  · rw [readSize_eq old empty solid]
    simp [empty]

theorem exists_readSize (old : Size) (solid : ∀ c ∈ s, isSpace c = false)
    (h : s = [] ∨ ∃ size, parseSize s = .ok size) : ∃ size, readSize old s = .ok size := by
  rcases h with rfl | ⟨size, parsed⟩
  · exact ⟨old, readSize_nil old⟩
  · exact ⟨size, (readSize_eq_ok solid).mpr (.inl parsed)⟩

/-- What both halves give is written, unless they miss a bound or reverse them. -/
theorem writtenRange_of_read (absent : '-' ∉ first)
    (solid : ∀ c ∈ first ++ '-' :: second, isSpace c = false)
    (strict : ¬Lenient (first ++ '-' :: second)) {low high : Size}
    (read₁ : readSize .zero first = .ok low) (read₂ : readSize .zero second = .ok high) :
    WrittenRange (first ++ '-' :: second) ⟨low, high⟩ := by
  obtain ⟨solid₁, solid₂⟩ := solid_cut solid
  rw [readSize_eq_ok solid₁] at read₁
  rw [readSize_eq_ok solid₂] at read₂
  have lenient : (∀ low high, parseSize first = .ok low → parseSize second = .ok high →
      high.value < low.value) → False := fun reversed =>
    strict ⟨first, second, absent, rfl, read₁.symm.imp And.left (⟨low, ·⟩),
      read₂.symm.imp And.left (⟨high, ·⟩), reversed⟩
  rcases read₁ with parsed₁ | ⟨rfl, _⟩
  · rcases read₂ with parsed₂ | ⟨rfl, _⟩
    · refine .two parsed₁ parsed₂ (Nat.le_of_not_lt fun reversed => lenient ?_)
      intro low' high' parsed₁' parsed₂'
      cases parsed₁.symm.trans parsed₁'
      cases parsed₂.symm.trans parsed₂'
      exact reversed
    · exact absurd (fun _ high _ parsed => absurd parsed (parseSize_nil high)) lenient
  · exact absurd (fun low _ parsed _ => absurd parsed (parseSize_nil low)) lenient

/-- The halves of a text are never checked, so it is accepted also where one is empty, and where the
first bound is the greater. Nothing else goes wrong. -/
theorem packetSizeExact_iff (nonempty : s ≠ []) (solid : ∀ c ∈ s, isSpace c = false) :
    PacketSizeExact s ↔ ¬Lenient s := by
  rw [packetSizeExact_iff_read nonempty solid]
  by_cases dash : '-' ∈ s
  · obtain ⟨first, second, rfl, absent⟩ := List.eq_append_cons_of_mem dash
    obtain ⟨solid₁, solid₂⟩ := solid_cut solid
    simp only [readBounds_cut_eq_ok absent]
    constructor
    · rintro exact ⟨first', second', absent', same, some₁, some₂, reversed⟩
      obtain ⟨rfl, rfl⟩ := cut_unique absent absent' same
      obtain ⟨low, read₁⟩ := exists_readSize .zero solid₁ some₁
      obtain ⟨high, read₂⟩ := exists_readSize .zero solid₂ some₂
      have written := (exact ⟨low, high⟩).mp ⟨low, high, read₁, read₂, rfl⟩
      obtain ⟨_, _, parsed₁, parsed₂, ordered, _⟩ := (writtenRange_cut absent solid).mp written
      exact absurd (reversed _ _ parsed₁ parsed₂) (Nat.not_lt_of_le ordered)
    · intro strict range
      constructor
      · rintro ⟨low, high, read₁, read₂, rfl⟩
        exact writtenRange_of_read absent solid strict read₁ read₂
      · intro written
        obtain ⟨low, high, parsed₁, parsed₂, _, rfl⟩ := (writtenRange_cut absent solid).mp written
        exact ⟨low, high, (readSize_eq_ok solid₁).mpr (.inl parsed₁),
          (readSize_eq_ok solid₂).mpr (.inl parsed₂), rfl⟩
  · refine iff_of_true (fun range => ?_) ?_
    · rw [readBounds_single dash, writtenRange_single dash, readSize_eq _ nonempty solid, map_eq_ok]
      simp only [eq_comm (a := range)]
    · rintro ⟨first, second, _, rfl, _⟩
      simp at dash

/-- `8B-9B`. -/
theorem packetSizeExact_ordered : PacketSizeExact ['8', 'B', '-', '9', 'B'] := by
  apply (packetSizeExact_iff (by simp) (by simp [isSpace])).mpr
  rintro ⟨first, second, absent, same, _, _, reversed⟩
  obtain ⟨rfl, rfl⟩ := cut_unique (by simp : '-' ∉ ['8', 'B']) absent same
  exact absurd (reversed _ _ rfl rfl) (by decide)

/-- `2B-1B`: a distribution would be built from a lower bound that is the greater. -/
theorem packetSize_reversed : ¬PacketSizeExact ['2', 'B', '-', '1', 'B'] := by
  rintro ⟨_, _, ordered⟩
  exact absurd (ordered _ _ rfl) (by decide)

end

end NetTester

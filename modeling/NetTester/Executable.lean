import NetTester.ProgramOptions
import NetTester.Session
import Mathlib.Data.List.Forall2

namespace NetTester

variable (options : ProgramOptions)

/-- The words of a line, after the name of a program. -/
def lineArguments (line : List Char) : List (List Char) := "enyx-net-bench".toList :: words line

/-- `fill_configuration` of one line. -/
def fillLine (c : SessionConfiguration) (line : List Char) : Except String SessionConfiguration :=
  (options.parse (lineArguments line)).bind fun given =>
    (options.store given).bind fun args => fillConfiguration c args

/-- The loop of `fill_configuration` over the lines of a file. One configuration is filled again and
again, and moved from each time: of all its fields only the text of the endpoint is not copied. -/
def fillLines (movedFrom : String → String) :
    SessionConfiguration → List (List Char) → Except String (List SessionConfiguration)
  | _, [] => .ok []
  | c, line :: others =>
    (fillLine options c line).bind fun c =>
      (fillLines movedFrom { c with endpoint := movedFrom c.endpoint } others).map (c :: ·)

/-- `SessionConfiguration c{}`. -/
def valueInitialized : SessionConfiguration where
  mode := .client
  verify := .none
  direction := .rx
  endpoint := ""
  sendBandwidth := .zero
  receiveBandwidth := .zero
  bandwidthSamplingFrequency := 0
  windows := .zero
  size := .zero
  packetSize := ⟨.zero, .zero⟩
  durationMargin := some 0
  shutdownPolicy := .waitForPeer
  protocol := .udp

/-- The sessions of a configuration file. -/
def parseFile (movedFrom : String → String) (file : List Char) :
    Except String (List SessionConfiguration) :=
  fillLines options movedFrom valueInitialized (lines '\n' file)

variable {options} {c c' configuration : SessionConfiguration} {args : VariablesMap}
  {line file : List Char}

/-- Every field of a configuration that passes the checks has been written. -/
theorem fillConfiguration_eq (c c' : SessionConfiguration) (args : VariablesMap) :
    fillConfiguration c args = fillConfiguration c' args := by
  cases connect : args.connect <;> cases listen : args.listen <;> cases size : args.size <;>
    simp [fillConfiguration, notify, connect, listen, size]

theorem fillLine_eq (c c' : SessionConfiguration) (line : List Char) :
    fillLine options c line = fillLine options c' line := by
  unfold fillLine
  simp only [fillConfiguration_eq c c']

theorem fillLines_eq_ok {movedFrom : String → String} {texts : List (List Char)}
    {cs : List SessionConfiguration} : fillLines options movedFrom c texts = .ok cs ↔
      List.Forall₂ (fun line c' => fillLine options valueInitialized line = .ok c') texts cs := by
  induction texts generalizing c cs with
  | nil =>
    rw [List.forall₂_nil_left_iff, fillLines, Except.ok.injEq]
    exact eq_comm
  | cons line others ih =>
    rw [fillLines, fillLine_eq c valueInitialized, List.forall₂_cons_left_iff, bind_eq_ok]
    simp only [map_eq_ok, ih]
    constructor
    · rintro ⟨c', first, rest, later, rfl⟩
      exact ⟨c', rest, first, later, rfl⟩
    · rintro ⟨c', rest, first, later, rfl⟩
      exact ⟨c', first, rest, later, rfl⟩

theorem parseFile_line {movedFrom : String → String} (absent : '\n' ∉ line)
    {cs : List SessionConfiguration} : parseFile options movedFrom (line ++ ['\n']) = .ok cs ↔
      ∃ c, fillLine options valueInitialized line = .ok c ∧ cs = [c] := by
  rw [parseFile, lines_append_cons absent, lines_nil, fillLines_eq_ok,
    List.forall₂_cons_left_iff]
  simp

theorem exists_forall₂_iff {α β : Type} {r : α → β → Prop} {xs : List α} :
    (∃ ys, List.Forall₂ r xs ys) ↔ ∀ x ∈ xs, ∃ y, r x y := by
  induction xs with
  | nil => simp
  | cons x xs ih =>
    rw [List.forall_mem_cons, ← ih]
    constructor
    · rintro ⟨ys, h⟩
      obtain ⟨y, others, first, later, _⟩ := List.forall₂_cons_left_iff.mp h
      exact ⟨⟨y, first⟩, others, later⟩
    · rintro ⟨⟨y, first⟩, ys, later⟩
      exact ⟨y :: ys, .cons first later⟩

/-- Each entry of a file that is parsed is what its line gives in a file of its own, and a file is
parsed if each of its lines is. -/
theorem parseFile_line_by_line (options : ProgramOptions) (movedFrom : String → String)
    (file : List Char) :
    (∀ cs, parseFile options movedFrom file = .ok cs →
      List.Forall₂ (fun line c => parseFile options movedFrom (line ++ ['\n']) = .ok [c])
        (lines '\n' file) cs) ∧
    ((∃ cs, parseFile options movedFrom file = .ok cs) ↔
      ∀ line ∈ lines '\n' file, ∃ cs, parseFile options movedFrom (line ++ ['\n']) = .ok cs) := by
  have absent : ∀ line ∈ lines '\n' file, '\n' ∉ line := fun line => not_mem_of_mem_lines
  constructor
  · intro cs parsed
    have each := (List.forall₂_and_left _ _).mpr ⟨absent, fillLines_eq_ok.mp parsed⟩
    exact each.imp fun line c ⟨absent, read⟩ => (parseFile_line absent).mpr ⟨c, read, rfl⟩
  · have whole : (∃ cs, parseFile options movedFrom file = .ok cs) ↔
        ∀ line ∈ lines '\n' file, ∃ c, fillLine options valueInitialized line = .ok c := by
      rw [← exists_forall₂_iff]
      exact exists_congr fun cs => fillLines_eq_ok
    rw [whole]
    refine forall₂_congr fun line member => ?_
    constructor
    · rintro ⟨c, read⟩
      exact ⟨[c], (parseFile_line (absent line member)).mpr ⟨c, read, rfl⟩⟩
    · rintro ⟨cs, parsed⟩
      obtain ⟨c, read, _⟩ := (parseFile_line (absent line member)).mp parsed
      exact ⟨c, read⟩

end NetTester

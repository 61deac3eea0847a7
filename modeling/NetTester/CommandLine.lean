import NetTester.CoreText
import NetTester.ZeroBandwidth
import Mathlib.Data.Multiset.Defs

namespace NetTester

section

variable {ι σ α ε : Type}

/-- A fold whose steps succeed in one order exactly if they do in the other, with the same result,
takes its list in any order. -/
theorem foldlM_perm {step : σ → α → Except ε σ}
    (swap : ∀ s a b t, (step s a).bind (step · b) = .ok t → (step s b).bind (step · a) = .ok t)
    {xs ys : List α} (same : xs.Perm ys) {s t : σ} (h : xs.foldlM step s = .ok t) :
    ys.foldlM step s = .ok t := by
  induction same generalizing s with
  | nil => exact h
  | cons a _ ih =>
    rw [List.foldlM_cons] at h ⊢
    obtain ⟨u, first, later⟩ := bind_eq_ok.mp h
    exact bind_eq_ok.mpr ⟨u, first, ih later⟩
  | swap a b xs =>
    simp only [List.foldlM_cons] at h ⊢
    obtain ⟨u, first, h⟩ := bind_eq_ok.mp h
    obtain ⟨v, second, later⟩ := bind_eq_ok.mp h
    obtain ⟨u', first', second'⟩ :=
      bind_eq_ok.mp (swap s b a v (bind_eq_ok.mpr ⟨u, first, second⟩))
    exact bind_eq_ok.mpr ⟨u', first', bind_eq_ok.mpr ⟨v, second', later⟩⟩
  | trans _ _ first second => exact second (first h)

variable [DecidableEq ι] {Value : ι → Type} {again : ι → ε}
  {validate : (i : ι) → α → Except ε (Value i)} {stored stored' : (i : ι) → Option (Value i)}

/-- Two keys are stored in either order. -/
theorem storeOnce_swap (given given' : ι × α)
    (h : (storeOnce again validate stored given).bind (storeOnce again validate · given') =
      .ok stored') :
    (storeOnce again validate stored given').bind (storeOnce again validate · given) =
      .ok stored' := by
  obtain ⟨i, a⟩ := given
  obtain ⟨j, b⟩ := given'
  obtain ⟨_, first, second⟩ := bind_eq_ok.mp h
  obtain ⟨absent, x, valid, rfl⟩ := storeOnce_eq_ok.mp first
  obtain ⟨absent', y, valid', rfl⟩ := storeOnce_eq_ok.mp second
  have other : j ≠ i := by
    rintro rfl
    simp at absent'
  rw [Function.update_of_ne other] at absent'
  refine bind_eq_ok.mpr ⟨_, storeOnce_eq_ok.mpr ⟨absent', y, valid', rfl⟩, ?_⟩
  refine storeOnce_eq_ok.mpr ⟨?_, x, valid, Function.update_comm other _ _ _⟩
  rw [Function.update_of_ne other.symm]
  exact absent

/-- Different keys with valid values are all stored. -/
theorem foldlM_storeOnce {target : (i : ι) → Option (Value i)} {given : List (ι × α)}
    (distinct : (given.map Prod.fst).Nodup) (absent : ∀ g ∈ given, stored g.1 = none)
    (valid : ∀ g ∈ given, ∃ value, validate g.1 g.2 = .ok value ∧ target g.1 = some value)
    (others : ∀ i, i ∉ given.map Prod.fst → target i = stored i) :
    given.foldlM (storeOnce again validate) stored = .ok target := by
  induction given generalizing stored with
  | nil => exact congrArg Except.ok (funext fun i => (others i (by simp)).symm)
  | cons first given ih =>
    obtain ⟨value, read, found⟩ := valid first List.mem_cons_self
    obtain ⟨fresh, distinct⟩ := List.nodup_cons.mp (List.map_cons ▸ distinct)
    have missing := absent first List.mem_cons_self
    rw [List.foldlM_cons]
    refine bind_eq_ok.mpr ⟨_, storeOnce_eq_ok.mpr ⟨missing, value, read, rfl⟩, ih distinct ?_
      (fun g later => valid g (List.mem_cons_of_mem _ later)) fun i other => ?_⟩
    · intro g later
      have different : g.1 ≠ first.1 := fun same => fresh (same ▸ List.mem_map_of_mem later)
      rw [Function.update_of_ne different]
      exact absent g (List.mem_cons_of_mem _ later)
    · by_cases same : i = first.1
      · subst same
        rw [Function.update_self]
        exact found
      · rw [Function.update_of_ne same]
        exact others i (by simp [same, other])

end

/-- The options of the program, by their long names. -/
inductive CommandName
  | configurationFile
  | cpuCores
  | help
deriving DecidableEq, Repr

def CommandName.Value : CommandName → Type
  | .configurationFile => String
  | .cpuCores => CpuCoreIdRanges
  | .help => Unit

structure ApplicationConfiguration where
  cpus : CpuCoreIdRanges
  sessionConfigurations : List SessionConfiguration

/-- What is taken from the libraries and from the system: the parser of the command line and the one
of the lines of a file, the messages, what a moved string and an unwritten bound hold, and the
files, of which some cannot be opened. -/
structure Environment where
  options : ProgramOptions
  parseCommand : List (List Char) → Except String (List (CommandName × List Char))
  multipleOccurrences : CommandName → String
  invalidOptionValue : CommandName → List Char → String
  movedFrom : String → String
  unwritten : Nat → CpuCoreId × CpuCoreId
  cin : List Char
  ifstream : String → Option (List Char)

namespace Environment

variable (env : Environment)

/-- `po::validate` of an option of the program. -/
def validate (name : CommandName) (s : List Char) : Except String name.Value :=
  match name with
  | .configurationFile => .ok (String.ofList s)
  | .cpuCores => lexicalCast (env.invalidOptionValue .cpuCores s)
    (fun s => (extractCores env.unwritten s).map fun (cores, rest) => rest.map (cores, ·)) s
  | .help => .ok ()

abbrev Stored : Type := (name : CommandName) → Option name.Value

def storeOption (stored : Stored) (given : CommandName × List Char) : Except String Stored :=
  storeOnce env.multipleOccurrences env.validate stored given

/-- The text of a file that cannot be opened is empty. -/
def readFile (file : String) : List Char :=
  if file = "-" then env.cin else (env.ifstream file).getD []

/-- What `parse` makes of the options of the program. -/
def configure (stored : Stored) : Except String ApplicationConfiguration :=
  if (stored .help).isSome then .error "help is requested"
  else
    match (stored .configurationFile).or (some "-") with
    | none => .error "--configuration-file argument is required"
    | some file =>
      (parseFile env.options env.movedFrom (env.readFile file)).map fun configurations =>
        ⟨(stored .cpuCores).getD ⟨[]⟩, configurations⟩

/-- `parse`. -/
def parse (argv : List (List Char)) : Except String ApplicationConfiguration :=
  (env.parseCommand argv).bind fun given =>
    (given.foldlM env.storeOption fun _ => none).bind env.configure

end Environment

section

variable {ι α : Type}

/-- A parser finds the same options with the same texts in both, in whatever order. -/
def Reordered (parse : List (List Char) → Except String (List (ι × α)))
    (argv argv' : List (List Char)) : Prop :=
  (parse argv).map Multiset.ofList = (parse argv').map Multiset.ofList

theorem Reordered.symm {parse : List (List Char) → Except String (List (ι × α))}
    {argv argv' : List (List Char)} (h : Reordered parse argv argv') :
    Reordered parse argv' argv := Eq.symm h

theorem Reordered.perm {parse : List (List Char) → Except String (List (ι × α))}
    {argv argv' : List (List Char)} (h : Reordered parse argv argv') {given : List (ι × α)}
    (found : parse argv = .ok given) : ∃ given', parse argv' = .ok given' ∧ given.Perm given' := by
  rw [Reordered, found] at h
  obtain ⟨given', found', same⟩ := map_eq_ok.mp h.symm
  exact ⟨given', found', (Multiset.coe_eq_coe.mp same).symm⟩

end

/-- The lines of two files, one by one, give the same options. -/
def SameOptions (options : ProgramOptions) (file file' : List Char) : Prop :=
  List.Forall₂ (fun line line' =>
    Reordered options.parse (lineArguments line) (lineArguments line'))
    (lines '\n' file) (lines '\n' file')

theorem SameOptions.symm {options : ProgramOptions} {file file' : List Char}
    (h : SameOptions options file file') : SameOptions options file' file :=
  (List.Forall₂.imp (fun _ _ => Reordered.symm) h).flip

theorem fillLine_reordered {options : ProgramOptions} {line line' : List Char}
    (same : Reordered options.parse (lineArguments line) (lineArguments line'))
    {c c' : SessionConfiguration} (h : fillLine options c line = .ok c') :
    fillLine options c line' = .ok c' := by
  obtain ⟨given, parsed, h⟩ := bind_eq_ok.mp h
  obtain ⟨args, stored, filled⟩ := bind_eq_ok.mp h
  obtain ⟨_, folded, rfl⟩ := map_eq_ok.mp stored
  obtain ⟨given', parsed', same⟩ := same.perm parsed
  have folded' := foldlM_perm (fun _ _ _ _ => storeOnce_swap _ _) same folded
  have stored' : options.store given' = .ok (applyDefaults _) := map_eq_ok.mpr ⟨_, folded', rfl⟩
  exact bind_eq_ok.mpr ⟨given', parsed', bind_eq_ok.mpr ⟨_, stored', filled⟩⟩

theorem fillLines_reordered {options : ProgramOptions} {texts texts' : List (List Char)}
    (same : List.Forall₂ (fun line line' =>
      Reordered options.parse (lineArguments line) (lineArguments line')) texts texts')
    {movedFrom : String → String} {c : SessionConfiguration} {cs : List SessionConfiguration}
    (h : fillLines options movedFrom c texts = .ok cs) :
    fillLines options movedFrom c texts' = .ok cs := by
  rw [fillLines_eq_ok] at h ⊢
  induction same generalizing cs with
  | nil => exact h
  | cons first _ ih =>
    obtain ⟨c', others, here, later, rfl⟩ := List.forall₂_cons_left_iff.mp h
    exact .cons (fillLine_reordered first here) (ih later)

namespace Environment

variable {env : Environment} {stored : Stored} {configuration : ApplicationConfiguration}

/-- The file that the program is to read. -/
def Stored.file (stored : Stored) : String := (stored .configurationFile).getD ("-" : String)

/-- The name of the file has a default, so it is always there. -/
theorem configure_eq_ok : env.configure stored = .ok configuration ↔ stored .help = none ∧
    parseFile env.options env.movedFrom (env.readFile stored.file) =
      .ok configuration.sessionConfigurations ∧
    (stored .cpuCores).getD (⟨[]⟩ : CpuCoreIdRanges) = configuration.cpus := by
  unfold configure
  split
  next help =>
    obtain ⟨value, found⟩ := Option.isSome_iff_exists.mp help
    simp [found]
  next help =>
    have help : stored .help = none := Option.not_isSome_iff_eq_none.mp help
    have named : (stored .configurationFile).or (some "-") = some stored.file := by
      unfold Stored.file
      cases stored .configurationFile <;> rfl
    simp only [named, help, true_and, map_eq_ok]
    constructor
    · rintro ⟨cs, parsed, rfl⟩
      exact ⟨parsed, rfl⟩
    · rintro ⟨parsed, cores⟩
      exact ⟨_, parsed, congrArg (ApplicationConfiguration.mk · _) cores⟩

/-- Where the parses of the files agree, so do those of the program. -/
theorem parse_reordered {env env' : Environment} (parser : env'.parseCommand = env.parseCommand)
    (storing : env'.storeOption = env.storeOption) {argv argv' : List (List Char)}
    (command : Reordered env.parseCommand argv argv')
    (files : ∀ file cs, parseFile env.options env.movedFrom (env.readFile file) = .ok cs →
      parseFile env'.options env'.movedFrom (env'.readFile file) = .ok cs)
    (h : env.parse argv = .ok configuration) : env'.parse argv' = .ok configuration := by
  obtain ⟨given, parsed, h⟩ := bind_eq_ok.mp h
  obtain ⟨stored, folded, configured⟩ := bind_eq_ok.mp h
  obtain ⟨given', parsed', same⟩ := command.perm parsed
  obtain ⟨help, read, cores⟩ := configure_eq_ok.mp configured
  refine bind_eq_ok.mpr ⟨given', parser ▸ parsed', bind_eq_ok.mpr ⟨stored, ?_, ?_⟩⟩
  · rw [storing]
    exact foldlM_perm (fun _ _ _ _ => storeOnce_swap _ _) same folded
  · exact configure_eq_ok.mpr ⟨help, files _ _ read, cores⟩

end Environment

/-- The order of the options matters neither on the command line nor on the lines of the files: the
program runs with the same configuration, or with none. -/
theorem options_order (env : Environment) {argv argv' : List (List Char)} {cin : List Char}
    {ifstream : String → Option (List Char)} (command : Reordered env.parseCommand argv argv')
    (files : ∀ file, SameOptions env.options (env.readFile file)
      ({ env with cin := cin, ifstream := ifstream }.readFile file))
    (configuration : ApplicationConfiguration) : env.parse argv = .ok configuration ↔
      { env with cin := cin, ifstream := ifstream }.parse argv' = .ok configuration := by
  let env' : Environment := { env with cin := cin, ifstream := ifstream }
  have parser : env'.parseCommand = env.parseCommand := rfl
  have storing : env'.storeOption = env.storeOption := rfl
  constructor
  · refine Environment.parse_reordered parser storing command fun file cs read => ?_
    exact fillLines_reordered (files file) read
  · refine Environment.parse_reordered parser.symm storing.symm command.symm fun file cs read => ?_
    exact fillLines_reordered (files file).symm read

def CommandName.text : CommandName → List Char
  | .configurationFile => "configuration-file".toList
  | .cpuCores => "cpu-cores".toList
  | .help => "help".toList

/-- An option of the program that is given as `--name=value`. -/
def commandOption (argument : List Char) : Option (CommandName × List Char) :=
  match argument with
  | '-' :: '-' :: rest =>
    ([.configurationFile, .cpuCores, .help].find? fun name =>
      CommandName.text name = rest.takeWhile (· != '=')).map fun name =>
        (name, (rest.dropWhile (· != '=')).drop 1)
  | _ => none

/-- A program that finds its lines in its standard input only. -/
def piped (cin : List Char) : Environment where
  options := longOptions
  parseCommand argv := .ok (argv.filterMap commandOption)
  multipleOccurrences name := "option '--" ++ String.ofList name.text ++
    "' cannot be specified more than once"
  invalidOptionValue name s := "the argument ('" ++ String.ofList s ++ "') for option '--" ++
    String.ofList name.text ++ "' is invalid"
  movedFrom := id
  unwritten _ := (0, 0)
  cin := cin
  ifstream _ := none

/-- A line with the name of a peer and a size. -/
def peerAndSize : List (List Char) := ["--connect=a:1".toList, "--size=1B".toList]

def lineOf (arguments : List (List Char)) : List Char := [' '].intercalate arguments ++ ['\n']

theorem lines_lineOf {arguments : List (List Char)}
    (absent : '\n' ∉ [' '].intercalate arguments) :
    lines '\n' (lineOf arguments) = [[' '].intercalate arguments] := by
  rw [lineOf, lines_append_cons absent, lines_nil]

theorem lineArguments_intercalate {arguments : List (List Char)}
    (solid : ∀ w ∈ arguments, w ≠ [] ∧ ∀ c ∈ w, isSpace c = false) :
    lineArguments ([' '].intercalate arguments) = "enyx-net-bench".toList :: arguments :=
  congrArg ("enyx-net-bench".toList :: ·) (words_intercalate solid)

/-- The session of a line in the standard input. -/
theorem piped_parse {arguments : List (List Char)}
    (absent : '\n' ∉ [' '].intercalate arguments)
    (solid : ∀ w ∈ arguments, w ≠ [] ∧ ∀ c ∈ w, isSpace c = false) {c : SessionConfiguration}
    (filled : (longOptions.parse ("enyx-net-bench".toList :: arguments)).bind (fun given =>
      (longOptions.store given).bind fun args => fillConfiguration valueInitialized args) = .ok c) :
    (piped (lineOf arguments)).parse ["--configuration-file=-".toList] = .ok ⟨⟨[]⟩, [c]⟩ := by
  refine bind_eq_ok.mpr ⟨_, rfl, bind_eq_ok.mpr ⟨_, rfl, ?_⟩⟩
  refine Environment.configure_eq_ok.mpr ⟨rfl, ?_, rfl⟩
  change fillLines longOptions id valueInitialized (lines '\n' (lineOf arguments)) = _
  rw [lines_lineOf absent]
  refine fillLines_eq_ok.mpr (.cons ?_ .nil)
  rw [fillLine, lineArguments_intercalate solid]
  exact filled

theorem options_order_two :
    (piped (lineOf peerAndSize.reverse)).parse ["--configuration-file=-".toList] =
      .ok ⟨⟨[]⟩, [defaultConfiguration "a:1" ⟨1, .iec, one_bounded⟩]⟩ := by
  refine (options_order (piped (lineOf peerAndSize)) rfl ?_ _).mp ?_
  · intro file
    by_cases input : file = "-"
    · subst input
      change List.Forall₂ _ (lines '\n' (lineOf peerAndSize))
        (lines '\n' (lineOf peerAndSize.reverse))
      rw [lines_lineOf (by decide), lines_lineOf (by decide)]
      refine .cons ?_ .nil
      rw [Reordered, lineArguments_intercalate (by simp [peerAndSize, isSpace]),
        lineArguments_intercalate (by simp [peerAndSize, isSpace])]
      exact congrArg Except.ok (Multiset.coe_eq_coe.mpr (by decide))
    · simp [SameOptions, Environment.readFile, input, piped, lines_nil]
  · exact piped_parse (by decide) (by simp [peerAndSize, isSpace]) (by decide +kernel)

end NetTester

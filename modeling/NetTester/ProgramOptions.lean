import NetTester.RangeText
import NetTester.SessionConfiguration
import Mathlib.Logic.Function.Basic

namespace NetTester

/-- The options of a session, by their long names. -/
inductive OptionName
  | connect
  | listen
  | size
  | protocol
  | txBandwidth
  | rxBandwidth
  | bandwidthSamplingFrequency
  | verify
  | mode
  | windows
  | durationMargin
  | maxDatagramSize
  | shutdownPolicy
deriving DecidableEq, Repr

namespace OptionName

def text : OptionName → List Char
  | .connect => "connect".toList
  | .listen => "listen".toList
  | .size => "size".toList
  | .protocol => "protocol".toList
  | .txBandwidth => "tx-bandwidth".toList
  | .rxBandwidth => "rx-bandwidth".toList
  | .bandwidthSamplingFrequency => "bandwidth-sampling-frequency".toList
  | .verify => "verify".toList
  | .mode => "mode".toList
  | .windows => "windows".toList
  | .durationMargin => "duration-margin".toList
  | .maxDatagramSize => "max-datagram-size".toList
  | .shutdownPolicy => "shutdown-policy".toList

def all : List OptionName :=
  [.connect, .listen, .size, .protocol, .txBandwidth, .rxBandwidth, .bandwidthSamplingFrequency,
    .verify, .mode, .windows, .durationMargin, .maxDatagramSize, .shutdownPolicy]

def Value : OptionName → Type
  | .connect | .listen => String
  | .size | .txBandwidth | .rxBandwidth | .windows => Size
  | .protocol => Protocol
  | .bandwidthSamplingFrequency => Nat
  | .verify => Verify
  | .mode => Direction
  | .durationMargin => Option Int
  | .maxDatagramSize => Range Size
  | .shutdownPolicy => ShutdownPolicy

end OptionName

/-- What is taken from the library: the parser of a command line, which finds the options in it with
the text of each, the readers of the types that are not the repository's, and the messages. -/
structure ProgramOptions where
  parse : List (List Char) → Except String (List (OptionName × List Char))
  multipleOccurrences : OptionName → String
  invalidOptionValue : OptionName → List Char → String
  uint64 : List Char → Option Nat
  timeDuration : List Char → Option (Option Int)

/-- `operator>>` of an enumeration: a word that names no value throws. -/
def extractName {α : Type} (names : List (List Char × α)) (error : String) (stream : List Char) :
    Except String (Option (α × List Char)) :=
  match token stream with
  | none => .ok none
  | some (s, rest) =>
    match names.lookup s with
    | some value => .ok (some (value, rest))
    | none => .error error

def extractVerify : List Char → Except String (Option (Verify × List Char)) :=
  extractName [("none".toList, .none), ("first".toList, .first), ("all".toList, .all)]
    "Unexpected verification mode"

def extractDirection : List Char → Except String (Option (Direction × List Char)) :=
  extractName [("tx".toList, .tx), ("rx".toList, .rx), ("both".toList, .both)]
    "Unexpected mode option value"

def extractShutdownPolicy : List Char → Except String (Option (ShutdownPolicy × List Char)) :=
  extractName [("wait_for_peer".toList, .waitForPeer), ("send_complete".toList, .sendComplete),
    ("receive_complete".toList, .receiveComplete)] "Unexpected shutdown policy"

def extractProtocol : List Char → Except String (Option (Protocol × List Char)) :=
  extractName [("tcp".toList, .tcp), ("udp".toList, .udp)] "Unexpected protocol"

/-- `lexical_cast`: no blank is skipped, and nothing may be left. What `operator>>` throws goes
through. -/
def lexicalCast {α : Type} (failure : String)
    (extract : List Char → Except String (Option (α × List Char))) (s : List Char) :
    Except String α :=
  if s.head?.any isSpace then .error failure
  else
    (extract s).bind fun
      | some (value, []) => .ok value
      | _ => .error failure

section

variable {ι α ε : Type} [DecidableEq ι] {Value : ι → Type}

/-- One value is stored for each key, if it is valid and the key has none. -/
def storeOnce (again : ι → ε) (validate : (i : ι) → α → Except ε (Value i))
    (stored : (i : ι) → Option (Value i)) (given : ι × α) :
    Except ε ((i : ι) → Option (Value i)) :=
  if (stored given.1).isSome then .error (again given.1)
  else (validate given.1 given.2).map fun value => Function.update stored given.1 (some value)

variable {again : ι → ε} {validate : (i : ι) → α → Except ε (Value i)}
  {stored stored' : (i : ι) → Option (Value i)}

theorem storeOnce_eq_ok {i : ι} {a : α} :
    storeOnce again validate stored (i, a) = .ok stored' ↔
      stored i = none ∧ ∃ value, validate i a = .ok value ∧
        Function.update stored i (some value) = stored' := by
  unfold storeOnce
  split
  next present =>
    obtain ⟨value, found⟩ := Option.isSome_iff_exists.mp present
    simp [found]
  next absent =>
    have absent : stored i = none := Option.not_isSome_iff_eq_none.mp absent
    simp only [absent, true_and, map_eq_ok]

end

namespace ProgramOptions

variable (options : ProgramOptions)

/-- `po::validate` of one option. -/
def validate (name : OptionName) (s : List Char) : Except String name.Value :=
  let failure := options.invalidOptionValue name s
  match name with
  | .connect | .listen => .ok (String.ofList s)
  | .size | .txBandwidth | .rxBandwidth | .windows => lexicalCast failure extractSize s
  | .protocol => lexicalCast failure extractProtocol s
  | .bandwidthSamplingFrequency => (options.uint64 s).elim (.error failure) .ok
  | .verify => lexicalCast failure extractVerify s
  | .mode => lexicalCast failure extractDirection s
  | .durationMargin => (options.timeDuration s).elim (.error failure) .ok
  | .maxDatagramSize => lexicalCast failure
    (fun s => (extractPacketSize s).map fun (range, rest) => rest.map (range, ·)) s
  | .shutdownPolicy => lexicalCast failure extractShutdownPolicy s

/-- The options stored so far. -/
abbrev Stored : Type := (name : OptionName) → Option name.Value

def storeOption (stored : Stored) (given : OptionName × List Char) : Except String Stored :=
  storeOnce options.multipleOccurrences options.validate stored given

end ProgramOptions

theorem defaultBandwidth_bounded : 128 * 1000 * 1000 < 2 ^ 64 := by decide

def defaultBandwidth : Size := ⟨128 * 1000 * 1000, .si, defaultBandwidth_bounded⟩

theorem defaultPacketSize_bounded : (1 <<< 16) - 64 < 2 ^ 64 := by decide

def defaultPacketSize : Size := ⟨(1 <<< 16) - 64, .iec, defaultPacketSize_bounded⟩

/-- The options that are not given get their defaults, those that have one. -/
def applyDefaults (stored : ProgramOptions.Stored) : VariablesMap where
  connect := stored .connect
  listen := stored .listen
  size := stored .size
  protocol := (stored .protocol).getD .tcp
  txBandwidth := (stored .txBandwidth).getD defaultBandwidth
  rxBandwidth := (stored .rxBandwidth).getD defaultBandwidth
  bandwidthSamplingFrequency := (stored .bandwidthSamplingFrequency).getD (1000 : Nat)
  verify := (stored .verify).getD .none
  mode := (stored .mode).getD .both
  windows := (stored .windows).getD Size.zero
  durationMargin := (stored .durationMargin).getD none
  maxDatagramSize := (stored .maxDatagramSize).getD ⟨defaultPacketSize, defaultPacketSize⟩
  shutdownPolicy := (stored .shutdownPolicy).getD .sendComplete

/-- `po::store`. -/
def ProgramOptions.store (options : ProgramOptions) (given : List (OptionName × List Char)) :
    Except String VariablesMap :=
  (given.foldlM options.storeOption fun _ => none).map applyDefaults

section

variable {options : ProgramOptions} {stored stored' : ProgramOptions.Stored} {name : OptionName}
  {text : List Char} {given : List (OptionName × List Char)}

/-- The first of the options that are given is stored, and the others after it. -/
theorem storeOptions_cons {first : OptionName × List Char}
    (h : (first :: given).foldlM options.storeOption stored = .ok stored') :
    stored first.1 = none ∧ ∃ value, options.validate first.1 first.2 = .ok value ∧
      given.foldlM options.storeOption (Function.update stored first.1 (some value)) =
        .ok stored' := by
  rw [List.foldlM_cons] at h
  obtain ⟨next, step, h⟩ := bind_eq_ok.mp h
  obtain ⟨absent, value, valid, rfl⟩ := storeOnce_eq_ok.mp step
  exact ⟨absent, value, valid, h⟩

/-- What is stored stays, and is not given again. -/
theorem storeOptions_keep (h : given.foldlM options.storeOption stored = .ok stored')
    {value : name.Value} (found : stored name = some value) :
    stored' name = some value ∧ ∀ text, (name, text) ∉ given := by
  induction given generalizing stored with
  | nil =>
    cases h
    exact ⟨found, by simp⟩
  | cons first given ih =>
    obtain ⟨absent, _, _, h⟩ := storeOptions_cons h
    have other : name ≠ first.1 := by
      rintro rfl
      rw [found] at absent
      cases absent
    obtain ⟨kept, once⟩ := ih h ((Function.update_of_ne other _ _).trans found)
    refine ⟨kept, fun text member => ?_⟩
    rcases List.mem_cons.mp member with rfl | later
    · exact other rfl
    · exact once text later

/-- What is stored of an option is what its text gives, and nothing where it is not given. -/
theorem storeOptions_eq (name : OptionName)
    (h : given.foldlM options.storeOption stored = .ok stored') (absent : stored name = none) :
    (∀ text, (name, text) ∈ given →
      ∃ value, options.validate name text = .ok value ∧ stored' name = some value) ∧
    ((∀ text, (name, text) ∉ given) → stored' name = none) := by
  induction given generalizing stored with
  | nil =>
    cases h
    exact ⟨by simp, fun _ => absent⟩
  | cons first given ih =>
    obtain ⟨_, value, valid, h⟩ := storeOptions_cons h
    by_cases same : name = first.1
    · subst same
      obtain ⟨found, once⟩ :=
        storeOptions_keep h (Function.update_self first.1 (some value) stored)
      refine ⟨fun text member => ?_, fun never => absurd List.mem_cons_self (never first.2)⟩
      rcases List.mem_cons.mp member with head | later
      · rw [← congrArg Prod.snd head] at valid
        exact ⟨value, valid, found⟩
      · exact absurd later (once text)
    · obtain ⟨present, missing⟩ := ih h ((Function.update_of_ne same _ _).trans absent)
      refine ⟨fun text member => ?_, fun never => missing fun text member =>
        never text (List.mem_cons_of_mem _ member)⟩
      rcases List.mem_cons.mp member with rfl | later
      · exact absurd rfl same
      · exact present text later

end

end NetTester

import NetTester.Regex
import NetTester.Token

namespace NetTester

open Regex

/-- A query of the resolver: a service, on a host or on none. -/
structure Query where
  host : Option (List Char)
  service : List Char
deriving DecidableEq

/-- `[^:]+`. -/
def fieldRegex : Regex := plus (.char (· != ':'))

def colonRegex : Regex := .char (· == ':')

/-- `(?:(?:([^:]+):)?([^:]+):)?([^:]+):([^:]+)`. -/
def endpointRegex : Regex :=
  .seq (.opt (.seq (.opt (.seq (.group 1 fieldRegex) colonRegex))
      (.seq (.group 2 fieldRegex) colonRegex)))
    (.seq (.group 3 fieldRegex) (.seq colonRegex (.group 4 fieldRegex)))

def endpointError (s : List Char) : String := "invalid endpoint'" ++ String.ofList s ++ "'"

/-- The local query and the remote one. -/
def matchQueries (m : Captures) : Query × Query :=
  let str i := (m.lookup i).getD []
  let localQuery : Query :=
    if (m.lookup 1).isSome then ⟨some (str 1), str 2⟩
    else if (m.lookup 2).isSome then ⟨none, str 2⟩
    else ⟨none, ['0']⟩
  (localQuery, ⟨some (str 3), str 4⟩)

/-- `Socket::resolve` up to the lookup of its two queries. -/
def resolve (s : List Char) : Except String (Query × Query) :=
  match regexMatch endpointRegex s with
  | none => .error (endpointError s)
  | some m => .ok (matchQueries m)

/-- The queries of an endpoint that is given as a list of fields. -/
def fieldQueries (fields : List (List Char)) : Option (Query × Query) :=
  if [] ∈ fields then none
  else
    match fields with
    | [host, service] => some (⟨none, ['0']⟩, ⟨some host, service⟩)
    | [localService, host, service] => some (⟨none, localService⟩, ⟨some host, service⟩)
    | [localHost, localService, host, service] =>
      some (⟨some localHost, localService⟩, ⟨some host, service⟩)
    | _ => none

/-- The captures of the expression, where it reads these fields. -/
inductive FieldCaptures : List (List Char) → Captures → Prop
  | two (h s : List Char) : FieldCaptures [h, s] [(4, s), (3, h)]
  | three (b h s : List Char) : FieldCaptures [b, h, s] [(4, s), (3, h), (2, b)]
  | four (a b h s : List Char) : FieldCaptures [a, b, h, s] [(4, s), (3, h), (2, b), (1, a)]

def Field (w : List Char) : Prop := w ≠ [] ∧ ':' ∉ w

variable {w : List Char} {a : Captures} {fields : List (List Char)}

theorem reads_fieldRegex : Reads fieldRegex w a ↔ Field w ∧ a = [] := by
  have free : (∀ c ∈ w, (c != ':') = true) ↔ ':' ∉ w := by
    simp only [bne_iff_ne]
    exact ⟨fun all member => all _ member rfl, fun absent c member same => absent (same ▸ member)⟩
  rw [fieldRegex, reads_plus_char, free, Field, and_assoc]

theorem reads_colonRegex : Reads colonRegex w a ↔ w = [':'] ∧ a = [] := by
  simp [colonRegex, reads_char]

theorem reads_fieldColon {i : Nat} : Reads (.seq (.group i fieldRegex) colonRegex) w a ↔
    ∃ field, Field field ∧ w = field ++ [':'] ∧ a = [(i, field)] := by
  simp only [reads_seq, reads_group, reads_fieldRegex, reads_colonRegex]
  constructor
  · rintro ⟨field, _, _, _, ⟨_, ⟨h, rfl⟩, rfl⟩, ⟨rfl, rfl⟩, rfl, rfl⟩
    exact ⟨field, h, rfl, rfl⟩
  · rintro ⟨field, h, rfl, rfl⟩
    exact ⟨field, [':'], [(i, field)], [], ⟨[], ⟨h, rfl⟩, rfl⟩, ⟨rfl, rfl⟩, rfl, rfl⟩

theorem reads_field_colon (i : Nat) {field : List Char} (h : Field field) :
    Reads (.seq (.group i fieldRegex) colonRegex) (field ++ [':']) [(i, field)] :=
  reads_fieldColon.mpr ⟨field, h, rfl, rfl⟩

theorem reads_hostService {host service : List Char} (hostField : Field host)
    (serviceField : Field service) :
    Reads (.seq (.group 3 fieldRegex) (.seq colonRegex (.group 4 fieldRegex)))
      (host ++ ':' :: service) [(4, service), (3, host)] :=
  .seq (.group (reads_fieldRegex.mpr ⟨hostField, rfl⟩))
    (.seq (reads_colonRegex.mpr ⟨rfl, rfl⟩) (.group (reads_fieldRegex.mpr ⟨serviceField, rfl⟩)))

/-- The expression reads two, three or four fields with a colon between each and the next. -/
theorem reads_endpointRegex : Reads endpointRegex w a ↔ ∃ fields, (∀ field ∈ fields, Field field) ∧
    w = [':'].intercalate fields ∧ FieldCaptures fields a := by
  constructor
  · intro h
    obtain ⟨_, _, _, _, front, back, rfl, rfl⟩ := reads_seq.mp h
    obtain ⟨host, _, _, _, third, rest, rfl, rfl⟩ := reads_seq.mp back
    obtain ⟨_, host', rfl⟩ := reads_group.mp third
    obtain ⟨hostField, rfl⟩ := reads_fieldRegex.mp host'
    obtain ⟨_, service, _, _, colon, fourth, rfl, rfl⟩ := reads_seq.mp rest
    obtain ⟨rfl, rfl⟩ := reads_colonRegex.mp colon
    obtain ⟨_, service', rfl⟩ := reads_group.mp fourth
    obtain ⟨serviceField, rfl⟩ := reads_fieldRegex.mp service'
    rcases reads_opt.mp front with front | ⟨rfl, rfl⟩
    · obtain ⟨_, _, _, _, first, second, rfl, rfl⟩ := reads_seq.mp front
      obtain ⟨b, secondField, rfl, rfl⟩ := reads_fieldColon.mp second
      rcases reads_opt.mp first with first | ⟨rfl, rfl⟩
      · obtain ⟨a, firstField, rfl, rfl⟩ := reads_fieldColon.mp first
        exact ⟨[a, b, host, service], by simp [*], by simp [List.intercalate], .four ..⟩
      · exact ⟨[b, host, service], by simp [*], by simp [List.intercalate], .three ..⟩
    · exact ⟨[host, service], by simp [*], by simp [List.intercalate], .two ..⟩
  · rintro ⟨fields, all, rfl, captures⟩
    cases captures with
    | two host service =>
      have back := reads_hostService (all host (by simp)) (all service (by simp))
      have whole : Reads endpointRegex _ _ := .seq .optNone back
      simpa [List.intercalate] using whole
    | three second host service =>
      have back := reads_hostService (all host (by simp)) (all service (by simp))
      have second' := reads_field_colon 2 (all second (by simp))
      have whole : Reads endpointRegex _ _ := .seq (.optSome (.seq .optNone second')) back
      simpa [List.intercalate] using whole
    | four first second host service =>
      have back := reads_hostService (all host (by simp)) (all service (by simp))
      have first' := reads_field_colon 1 (all first (by simp))
      have second' := reads_field_colon 2 (all second (by simp))
      have whole : Reads endpointRegex _ _ :=
        .seq (.optSome (.seq (.optSome first') second')) back
      simpa [List.intercalate] using whole

theorem FieldCaptures.unique {a b : Captures} (h : FieldCaptures fields a)
    (h' : FieldCaptures fields b) : a = b := by
  cases h <;> cases h' <;> rfl

/-- What the fields of a text are, where they are all nonempty. -/
theorem eq_splitOn (all : ∀ field ∈ fields, Field field) (some : fields ≠ [])
    (h : w = [':'].intercalate fields) : fields = w.splitOn ':' := by
  rw [h, List.splitOn_intercalate ':' (fun field member => (all field member).2) some]

theorem FieldCaptures.ne_nil (h : FieldCaptures fields a) : fields ≠ [] := by
  cases h <;> simp

theorem reads_endpointRegex_iff : Reads endpointRegex w a ↔
    [] ∉ w.splitOn ':' ∧ FieldCaptures (w.splitOn ':') a := by
  rw [reads_endpointRegex]
  constructor
  · rintro ⟨fields, all, split, captures⟩
    rw [← eq_splitOn all captures.ne_nil split]
    exact ⟨fun empty => (all [] empty).1 rfl, captures⟩
  · rintro ⟨nonempty, captures⟩
    refine ⟨_, fun field member => ⟨?_, ?_⟩, (List.intercalate_splitOn ':').symm, captures⟩
    · rintro rfl
      exact nonempty member
    · exact not_mem_of_mem_splitOn member

theorem fieldQueries_eq_some {queries : Query × Query} : fieldQueries fields = some queries ↔
    [] ∉ fields ∧ ∃ a, FieldCaptures fields a ∧ matchQueries a = queries := by
  constructor
  · intro h
    unfold fieldQueries at h
    split at h
    next => simp at h
    next nonempty =>
    refine ⟨nonempty, ?_⟩
    split at h
    next host service => exact ⟨_, .two host service, Option.some.inj h⟩
    next b host service => exact ⟨_, .three b host service, Option.some.inj h⟩
    next a b host service => exact ⟨_, .four a b host service, Option.some.inj h⟩
    next => simp at h
  · rintro ⟨nonempty, a, captures, rfl⟩
    unfold fieldQueries
    rw [if_neg nonempty]
    cases captures <;> rfl

/-- An endpoint is two, three or four fields, all nonempty: the last two make the remote query, and
those before them the local one. -/
theorem resolve_eq_ok_iff (s : List Char) (queries : Query × Query) :
    resolve s = .ok queries ↔ fieldQueries (s.splitOn ':') = some queries := by
  rw [fieldQueries_eq_some]
  unfold resolve
  split
  next missed =>
    have unread := regexMatch_eq_none.mp missed
    constructor
    · intro h
      cases h
    · rintro ⟨nonempty, a, captures, _⟩
      exact absurd (reads_endpointRegex_iff.mpr ⟨nonempty, captures⟩) (unread a)
  next m found =>
    obtain ⟨nonempty, captures⟩ := reads_endpointRegex_iff.mp (regexMatch_sound found)
    rw [Except.ok.injEq]
    constructor
    · intro same
      exact ⟨nonempty, m, captures, same⟩
    · rintro ⟨_, a, captures', same⟩
      rw [captures.unique captures', same]

example : resolve ['a', ':', 'b', ':', 'c'] = .ok (⟨none, ['a']⟩, ⟨some ['b'], ['c']⟩) := rfl

end NetTester

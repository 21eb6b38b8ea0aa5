import ScrapeDiscovery.Duration.Parser
import ScrapeDiscovery.KeyMap

/-!
# Data of a document

A `Datum` is what a document of any format says: a scalar, a list or a mapping.
Formats differ in what a scalar may be read as, so a scalar carries its readings
with it. The readers of this module turn data into values of the domain; they
fail on data of another shape, on unknown fields and on repeated ones.

Results:
* `fields?_unknown`: a mapping with an unknown field is no record.
-/

namespace ScrapeDiscovery

/-- What a scalar says where a scalar of any type is welcome. -/
inductive Atom where
  | text (value : String)
  | int (value : Int)
  | bool (value : Bool)
  /-- Nothing, or a number that is no integer of 64 bits. -/
  | other
  deriving DecidableEq, Repr

/-- Whether a scalar stands for a value where there may be none. -/
inductive Presence where
  | present
  | absent
  /-- The scalar claims to be nothing and is not. -/
  | contradictory
  deriving DecidableEq, Repr

/-- A scalar and its readings. -/
structure Scalar where
  /-- The scalar read as a text. -/
  text? : Option String
  /-- The scalar read as a truth value. -/
  bool? : Option Bool
  presence : Presence
  /-- Whether it also stands for an empty list or mapping. -/
  isEmptyCollection : Bool
  atom : Atom
  deriving DecidableEq, Repr

/-- The data of a document. -/
inductive Datum where
  | scalar (s : Scalar)
  /-- A list. `asRecord` where it may also give the fields of a record in their order. -/
  | list (asRecord : Bool) (items : List Datum)
  | mapping (entries : List (Datum × Datum))
  deriving Repr

/-- A field of a record and the names it may have. -/
structure FieldName where
  name : String
  aliases : List String := []
  deriving DecidableEq, Repr

/-- The fields of a record that a document gives, under their first names. -/
abbrev Fields := KeyMap Datum

namespace Datum

/-! ## Scalars -/

/-- Reads a text. -/
def text? : Datum → Option String
  | scalar s => s.text?
  | _ => none

/-- Reads a truth value. -/
def bool? : Datum → Option Bool
  | scalar s => s.bool?
  | _ => none

/-- Reads a text that may also be written as an integer or a truth value (`string_or_scalar`). -/
def textOfAny? : Datum → Option String
  | scalar s =>
    match s.atom with
    | .text t => some t
    | .int n => some (toString n)
    | .bool b => some (if b then "true" else "false")
    | .other => none
  | _ => none

/-- Reads a duration. -/
def duration? (d : Datum) : Option Duration :=
  d.text?.bind fun t => (Duration.parse t).toOption

/-- Reads a value that may be left out. -/
def optional? {α : Type} (read : Datum → Option α) : Datum → Option (Option α)
  | scalar s =>
    match s.presence with
    | .absent => some none
    | .present => (read (scalar s)).map some
    | .contradictory => none
  | d => (read d).map some

/-! ## Collections -/

/-- Reads a list. -/
def list? {α : Type} (read : Datum → Option α) : Datum → Option (List α)
  | scalar s => if s.isEmptyCollection then some [] else none
  | list _ items => items.mapM read
  | mapping _ => none

/-- Reads a map; of several values under one key the last counts. -/
def map? {α : Type} (read : Datum → Option α) : Datum → Option (KeyMap α)
  | scalar s => if s.isEmptyCollection then some ∅ else none
  | list _ _ => none
  | mapping entries =>
    (entries.mapM fun (e : Datum × Datum) => do
      return (← text? e.1, ← read e.2)).map KeyMap.ofList

/-! ## Records -/

/-- The first name of the field that `key` names. -/
def fieldOf? (names : List FieldName) (key : String) : Option String :=
  (names.find? fun f => f.name == key || f.aliases.contains key).map (·.name)

/-- Adds the entries of a mapping to the fields that are already given. -/
def addFields (names : List FieldName) : List (Datum × Datum) → Fields → Option Fields
  | [], fields => some fields
  | (key, value) :: entries, fields => do
    let name ← fieldOf? names (← key.text?)
    if fields.contains name then none
    else addFields names entries (fields.insert name value)

/-- The fields of a record: every name is known and given once. -/
def fields? (names : List FieldName) : Datum → Option Fields
  | scalar s => if s.isEmptyCollection then some ∅ else none
  | list asRecord items =>
    if asRecord && items.length ≤ names.length then
      some (KeyMap.ofList ((names.map (·.name)).zip items))
    else none
  | mapping entries => addFields names entries ∅

/-- A mapping with an unknown field is no record. -/
theorem fields?_unknown {names : List FieldName} {key value : Datum} {t : String}
    {before after : List (Datum × Datum)} (ht : key.text? = some t)
    (hn : fieldOf? names t = none) :
    fields? names (mapping (before ++ (key, value) :: after)) = none := by
  have h : ∀ fs : Fields, addFields names (before ++ (key, value) :: after) fs = none := by
    induction before with
    | nil => intro fs; simp [addFields, ht, hn]
    | cons e es ih =>
      intro fs
      simp only [List.cons_append, addFields]
      cases hk : e.1.text? with
      | none => rfl
      | some k =>
        cases hf : fieldOf? names k with
        | none => simp [hf]
        | some f =>
          by_cases hc : fs.contains f
          · simp [hf, hc]
          · simpa [hf, hc] using ih (fs.insert f e.2)
  exact h ∅

end Datum

namespace Fields

/-- Reads a field that has to be given. -/
def required? {α : Type} (fields : Fields) (name : String) (read : Datum → Option α) : Option α :=
  (fields.get? name).bind read

/-- Reads a field that has a value of its own when it is not given. -/
def get {α : Type} (fields : Fields) (name : String) (read : Datum → Option α) (default : α) :
    Option α :=
  match fields.get? name with
  | none => some default
  | some d => read d

end Fields

end ScrapeDiscovery

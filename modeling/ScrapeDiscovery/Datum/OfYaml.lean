import ScrapeDiscovery.Datum.Basic
import ScrapeDiscovery.Yaml.Node

/-!
# The data of a YAML document

Every scalar can be read as a text. Where any type is welcome, a plain scalar is
what the core schema makes of it: nothing, a truth value, an integer in one of
four radices, a floating point number, or else a text; a number with a leading
zero is a text. A standard tag forces a type, and a scalar with a tag of the
document's own has none.

Aliases are replaced by what they stand for. Collections may be nested 128 deep,
and the number of replaced aliases is bounded by a hundred for every event of the
document.
-/

namespace ScrapeDiscovery.Yaml

/-! ## Scalars -/

/-- Whether a scalar is one of the spellings of nothing. -/
def isNull (s : String) : Bool := ["null", "Null", "NULL", "~"].contains s

/-- The truth value of a scalar. -/
def bool? (s : String) : Option Bool :=
  if ["true", "True", "TRUE"].contains s then some true
  else if ["false", "False", "FALSE"].contains s then some false
  else none

/-- Whether a scalar has a sign and digits with a leading zero, which makes it a text. -/
def hasLeadingZero (cs : List Char) : Bool :=
  let cs := match cs with
    | '-' :: cs => cs
    | '+' :: cs => cs
    | cs => cs
  cs.length > 1 && cs.head? == some '0' && cs.all fun c => '0' ≤ c && c ≤ '9'

/-- Whether `cs` begins with a sign. -/
def startsWithSign (cs : List Char) : Bool := cs.head? == some '+' || cs.head? == some '-'

/-- Reads a number without a minus sign: after a plus sign and the mark of a radix no second
sign may stand. -/
def nat? (range : Text.IntRange) (cs : List Char) : Option Int :=
  let digits := match cs with
    | '+' :: cs => cs
    | cs => cs
  let inRadix (radix : Nat) (rest : List Char) : Option Int :=
    if startsWithSign rest then none else (Text.readInt radix range rest).toOption
  match digits with
  | '0' :: 'x' :: rest => inRadix 16 rest
  | '0' :: 'o' :: rest => inRadix 8 rest
  | '0' :: 'b' :: rest => inRadix 2 rest
  | _ =>
    if startsWithSign digits || hasLeadingZero cs then none
    else (Text.readInt 10 range digits).toOption

/-- Reads a number with a sign. -/
def negative? (range : Text.IntRange) (cs : List Char) : Option Int :=
  match cs with
  | '-' :: '0' :: 'x' :: rest => (Text.readInt 16 range ('-' :: rest)).toOption
  | '-' :: '0' :: 'o' :: rest => (Text.readInt 8 range ('-' :: rest)).toOption
  | '-' :: '0' :: 'b' :: rest => (Text.readInt 2 range ('-' :: rest)).toOption
  | _ => if hasLeadingZero cs then none else (Text.readInt 10 range cs).toOption

/-- What an integer of any size is as an atom. -/
def intAtom? (cs : List Char) : Option Atom :=
  match nat? .nat64 cs with
  | some n => some (if n ≤ Text.IntRange.int64.hi then .int n else .other)
  | none =>
    match negative? .int64 cs with
    | some n => some (.int n)
    | none =>
      if (nat? .nat128 cs).isSome || (negative? .int128 cs).isSome then some .other else none

/-- The parts of a decimal number: its digits without the point, and the power of ten that
they are to be multiplied with. -/
def decimalParts? (cs : List Char) : Option (List Char × Int) :=
  let isDigit (c : Char) : Bool := '0' ≤ c && c ≤ '9'
  let whole := cs.takeWhile isDigit
  let rest := cs.dropWhile isDigit
  let (fraction, rest) := match rest with
    | '.' :: rest => (rest.takeWhile isDigit, rest.dropWhile isDigit)
    | rest => ([], rest)
  if whole.isEmpty && fraction.isEmpty then none
  else
    match rest with
    | [] => some (whole ++ fraction, -fraction.length)
    | e :: rest =>
      if e == 'e' || e == 'E' then
        let (sign, digits) : Int × List Char := match rest with
          | '-' :: ds => (-1, ds)
          | '+' :: ds => (1, ds)
          | ds => (1, ds)
        if digits.isEmpty || !digits.all isDigit then none
        else
          let exponent := digits.foldl (fun n d => n * 10 + (d.toNat - '0'.toNat)) 0
          some (whole ++ fraction, sign * exponent - fraction.length)
      else none

/-- Whether digits times a power of ten stay below the least number that rounds to more than
the largest finite number of double precision, which is 2^1024 - 2^970. -/
def isFinite (digits : List Char) (exponent : Int) : Bool :=
  let n := digits.foldl (fun n d => n * 10 + (d.toNat - '0'.toNat)) 0
  let limit := Nat.pow 2 1024 - Nat.pow 2 970
  if n == 0 then true
  else
    match exponent with
    | .ofNat e => if e > 400 then false else n * Nat.pow 10 e < limit
    | .negSucc e => if digits.length < e + 300 then true else n < limit * Nat.pow 10 (e + 1)

/-- Whether a plain scalar is a floating point number. -/
def isFloat (cs : List Char) : Bool :=
  if [".inf", ".Inf", ".INF", "+.inf", "+.Inf", "+.INF", "-.inf", "-.Inf", "-.INF", ".nan",
      ".NaN", ".NAN"].contains (String.ofList cs) then true
  else
    let unsigned := match cs with
      | '+' :: rest => if startsWithSign rest then [] else rest
      | '-' :: rest => rest
      | cs => cs
    match decimalParts? unsigned with
    | some (digits, exponent) => isFinite digits exponent
    | none => false

/-- What the core schema makes of a plain scalar. -/
def plainAtom (s : String) : Atom :=
  let cs := s.toList
  if s = "" || isNull s then .other
  else
    match bool? s, intAtom? cs with
    | some b, _ => .bool b
    | none, some a => a
    | none, none => if !hasLeadingZero cs && isFloat cs then .other else .text s

/-- What a scalar is where any type is welcome. -/
def atom (tag : Option String) (s : String) (style : ScalarStyle) : Atom :=
  match tag with
  | none => if style == .plain then plainAtom s else .text s
  | some tag =>
    if tag = "tag:yaml.org,2002:bool" then (bool? s).elim .other .bool
    else if tag = "tag:yaml.org,2002:int" then (intAtom? s.toList).getD .other
    else if tag = "tag:yaml.org,2002:float" || tag = "tag:yaml.org,2002:null" then .other
    else if tag.toList.head? == some '!' then .other
    else .text s

/-- The truth value of a scalar that is plain, or a literal with the tag of truth values. -/
def scalarBool? (tag : Option String) (s : String) (style : ScalarStyle) : Option Bool :=
  match style with
  | .plain => bool? s
  | .literal => if tag = some "tag:yaml.org,2002:bool" then bool? s else none
  | _ => none

/-- Whether a scalar stands for a value. -/
def presence (tag : Option String) (s : String) (style : ScalarStyle) : Presence :=
  if style != .plain then .present
  else
    match tag with
    | some tag =>
      if tag = "tag:yaml.org,2002:null" then
        if isNull s then .absent else .contradictory
      else .present
    | none => if s = "" || isNull s then .absent else .present

/-- The readings of a scalar. -/
def readings (tag : Option String) (s : String) (style : ScalarStyle) : Scalar where
  text? := some s
  bool? := scalarBool? tag s style
  presence := presence tag s style
  isEmptyCollection := s = "" && style == .plain
  atom := atom tag s style

/-! ## Aliases -/

/-- A node whose aliases name slots. -/
inductive Linked where
  | scalar (s : Scalar)
  | sequence (items : List Linked)
  | mapping (entries : List (Linked × Linked))
  | alias (slot : Nat)
  deriving Repr

/-- The linked nodes of the anchored slots, the latest first. -/
abbrev Slots := List (Nat × Linked)

/-- What is known of the anchors so far: the slot of each name, the nodes in the slots, and
the number of events. A new anchor takes the slot that is numbered by the names so far, so a
name that is used again may share its slot with a later one, and then the last node counts
for both. -/
structure Linking where
  names : KeyMap Nat
  slots : Slots
  events : Nat

namespace Linking

/-- Gives the next slot to an anchor. -/
def anchor (l : Linking) : Option String → Linking × Option Nat
  | none => (l, none)
  | some name => ({ l with names := l.names.insert name l.names.size }, some l.names.size)

/-- Puts a node into the slot of its anchor. -/
def define (l : Linking) (slot : Option Nat) (n : Linked) : Linking :=
  match slot with
  | none => l
  | some slot => { l with slots := (slot, n) :: l.slots }

/-- Counts events. -/
def count (l : Linking) (n : Nat) : Linking := { l with events := l.events + n }

end Linking

mutual

/-- Links the aliases of a node. -/
def link (l : Linking) : Node → Except Problem (Linked × Linking)
  | .scalar anchor tag text style =>
    let (l, slot) := (l.count 1).anchor anchor
    let n := Linked.scalar (readings tag text style)
    .ok (n, l.define slot n)
  | .alias name =>
    match l.names.get? name with
    | none => .error .unknownAnchor
    | some slot => .ok (.alias slot, l.count 1)
  | .sequence anchor items => do
    let (l, slot) := (l.count 2).anchor anchor
    let (items, l) ← linkItems l items
    return (.sequence items, l.define slot (.sequence items))
  | .mapping anchor entries => do
    let (l, slot) := (l.count 2).anchor anchor
    let (entries, l) ← linkEntries l entries
    return (.mapping entries, l.define slot (.mapping entries))

/-- Links the aliases of the items of a sequence. -/
def linkItems (l : Linking) : List Node → Except Problem (List Linked × Linking)
  | [] => .ok ([], l)
  | n :: ns => do
    let (n, l) ← link l n
    let (ns, l) ← linkItems l ns
    return (n :: ns, l)

/-- Links the aliases of the entries of a mapping. -/
def linkEntries (l : Linking) :
    List (Node × Node) → Except Problem (List (Linked × Linked) × Linking)
  | [] => .ok ([], l)
  | (k, v) :: es => do
    let (k, l) ← link l k
    let (v, l) ← link l v
    let (es, l) ← linkEntries l es
    return ((k, v) :: es, l)

end

/-- The node that stands in a slot at the end of the document. Of nodes that share a slot the
one whose anchor came last counts. -/
def Slots.get (slots : Slots) (slot : Nat) : Option Linked := slots.lookup slot

mutual

/-- Replaces aliases. `depth` is how deep collections may still be nested and `budget` how
many aliases may still be replaced. -/
def expand (slots : Slots) : (fuel depth budget : Nat) → Linked → Except Problem (Datum × Nat)
  | 0, _, _, _ => .error .tooDeep
  | fuel + 1, depth, budget, n =>
    match n with
    | .scalar s => .ok (.scalar s, budget)
    | .alias slot =>
      match budget, slots.get slot with
      | 0, _ => .error .tooManyAliases
      | _, none => .error .unknownAnchor
      | budget + 1, some n => expand slots fuel depth budget n
    | .sequence items =>
      match depth with
      | 0 => .error .tooDeep
      | depth + 1 => do
        let (items, budget) ← expandItems slots fuel depth budget items
        return (.list false items, budget)
    | .mapping entries =>
      match depth with
      | 0 => .error .tooDeep
      | depth + 1 => do
        let (entries, budget) ← expandEntries slots fuel depth budget entries
        return (.mapping entries, budget)

/-- Replaces the aliases in the items of a sequence. -/
def expandItems (slots : Slots) :
    (fuel depth budget : Nat) → List Linked → Except Problem (List Datum × Nat)
  | 0, _, _, _ => .error .tooDeep
  | _ + 1, _, budget, [] => .ok ([], budget)
  | fuel + 1, depth, budget, n :: ns => do
    let (d, budget) ← expand slots fuel depth budget n
    let (ds, budget) ← expandItems slots fuel depth budget ns
    return (d :: ds, budget)

/-- Replaces the aliases in the entries of a mapping. -/
def expandEntries (slots : Slots) :
    (fuel depth budget : Nat) → List (Linked × Linked) →
      Except Problem (List (Datum × Datum) × Nat)
  | 0, _, _, _ => .error .tooDeep
  | _ + 1, _, budget, [] => .ok ([], budget)
  | fuel + 1, depth, budget, (k, v) :: es => do
    let (k, budget) ← expand slots fuel depth budget k
    let (v, budget) ← expand slots fuel depth budget v
    let (es, budget) ← expandEntries slots fuel depth budget es
    return ((k, v) :: es, budget)

end

/-! ## Documents -/

/-- The data of a YAML text with at most one document. A text without any is like an empty
scalar. -/
def read (document : String) : Except Problem Datum := do
  let node := (← Node.ofTokens (← Token.ofText document)).getD Node.absent
  let (linked, l) ← link ⟨∅, [], 0⟩ node
  let fuel := 129 * (l.events + 2) * 2
  let (d, _) ← expand l.slots fuel 128 (100 * l.events) linked
  return d

end ScrapeDiscovery.Yaml

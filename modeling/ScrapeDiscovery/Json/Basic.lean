import ScrapeDiscovery.KeyMap
import ScrapeDiscovery.Text.Numeral

/-!
# JSON values

A `Json` value keeps what a document says: numbers as they are written and the
members of an object in their order, repeated names included. What a reader
makes of a repeated name is up to it; `canonical` keeps the last one.
-/

namespace ScrapeDiscovery

/-- A JSON value. -/
inductive Json where
  | null
  | bool (value : Bool)
  /-- A number, as it is written. -/
  | number (lexeme : String)
  | text (value : String)
  | list (items : List Json)
  | object (members : List (String × Json))
  deriving Repr, Inhabited

namespace Json

/-- A natural number. -/
def nat (n : Nat) : Json := .number (toString n)

/-- An integer. -/
def int (n : Int) : Json := .number (toString n)

/-- A list of texts. -/
def texts (xs : List String) : Json := .list (xs.map .text)

/-- An object with the entries of a map. -/
def ofMap (m : KeyMap Json) : Json := .object m.toList

/-- A text, or null. -/
def optionalText : Option String → Json
  | none => .null
  | some s => .text s

/-- The members of an object. -/
def members : Json → List (String × Json)
  | .object ms => ms
  | _ => []

/-- The member `name` of an object; of several the last. -/
def get? (j : Json) (name : String) : Option Json :=
  (j.members.findRev? fun m => m.1 = name).map (·.2)

/-- The text of a text value. -/
def text? : Json → Option String
  | .text s => some s
  | _ => none

/-- The truth value of a Boolean. -/
def bool? : Json → Option Bool
  | .bool b => some b
  | _ => none

/-- The items of a list. -/
def list? : Json → Option (List Json)
  | .list xs => some xs
  | _ => none

/-- Whether the written number has neither a fraction nor an exponent. -/
def isIntegerLexeme (lexeme : String) : Bool :=
  lexeme.toList.all fun c => c ≠ '.' && c ≠ 'e' && c ≠ 'E'

/-- The integer of a number written without fraction and exponent, if it lies in the range.
Minus zero is not an integer. -/
def int? (range : Text.IntRange) : Json → Option Int
  | .number lexeme =>
    if isIntegerLexeme lexeme && lexeme ≠ "-0" then (Text.parseInt range lexeme).toOption else none
  | _ => none

mutual

/-- How deep lists and objects are nested. -/
def depth : Json → Nat
  | .list xs => 1 + depthOfItems xs
  | .object ms => 1 + depthOfMembers ms
  | _ => 0

/-- The greatest depth of an item. -/
def depthOfItems : List Json → Nat
  | [] => 0
  | x :: xs => max (depth x) (depthOfItems xs)

/-- The greatest depth of a member. -/
def depthOfMembers : List (String × Json) → Nat
  | [] => 0
  | (_, v) :: ms => max (depth v) (depthOfMembers ms)

end

mutual

/-- The value with the members of every object in ascending order of their names, the last
one of each name. -/
def canonical : Json → Json
  | .list xs => .list (canonicalItems xs)
  | .object ms => .object (KeyMap.ofList (canonicalMembers ms)).toList
  | .null => .null
  | .bool b => .bool b
  | .number l => .number l
  | .text s => .text s

/-- The items in canonical form. -/
def canonicalItems : List Json → List Json
  | [] => []
  | x :: xs => canonical x :: canonicalItems xs

/-- The members with their values in canonical form. -/
def canonicalMembers : List (String × Json) → List (String × Json)
  | [] => []
  | (k, v) :: ms => (k, canonical v) :: canonicalMembers ms

end

end Json

end ScrapeDiscovery

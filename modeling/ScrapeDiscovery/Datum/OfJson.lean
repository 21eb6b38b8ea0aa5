import ScrapeDiscovery.Datum.Basic
import ScrapeDiscovery.Json.Basic

/-!
# The data of a JSON value

Texts, truth values and integers are told apart, null stands for nothing, and a
list may give the fields of a record in their order.
-/

namespace ScrapeDiscovery.Datum

/-- A scalar that is a text. -/
def ofText (t : String) : Scalar := ⟨some t, none, .present, false, .text t⟩

mutual

/-- The data of a JSON value. -/
def ofJson : Json → Datum
  | .null => .scalar ⟨none, none, .absent, false, .other⟩
  | .bool b => .scalar ⟨none, some b, .present, false, .bool b⟩
  | .number l =>
    .scalar ⟨none, none, .present, false,
      match (Json.number l).int? Text.IntRange.int64 with
      | some n => .int n
      | none => .other⟩
  | .text t => .scalar (ofText t)
  | .list xs => .list true (ofItems xs)
  | .object ms => .mapping (ofMembers ms)

/-- The data of the items of a list. -/
def ofItems : List Json → List Datum
  | [] => []
  | x :: xs => ofJson x :: ofItems xs

/-- The data of the members of an object. -/
def ofMembers : List (String × Json) → List (Datum × Datum)
  | [] => []
  | (k, v) :: ms => (.scalar (ofText k), ofJson v) :: ofMembers ms

end

end ScrapeDiscovery.Datum

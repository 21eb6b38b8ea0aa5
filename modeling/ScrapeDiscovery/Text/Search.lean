/-!
# Finding and replacing parts of a text

Occurrences are taken from left to right and do not overlap; what replaces one is
not searched again.
-/

namespace ScrapeDiscovery.Text

/-- Whether `part` occurs in a text. -/
def hasPart (part : List Char) : List Char → Bool
  | [] => part.isEmpty
  | c :: cs => part.isPrefixOf (c :: cs) || hasPart part cs

/-- Replaces the occurrences of `part` after the next `skip` characters, which are dropped. -/
def replaceFrom (part replacement : List Char) : (skip : Nat) → List Char → List Char
  | _, [] => []
  | skip + 1, _ :: cs => replaceFrom part replacement skip cs
  | 0, c :: cs =>
    if part.isPrefixOf (c :: cs) then
      replacement ++ replaceFrom part replacement (part.length - 1) cs
    else c :: replaceFrom part replacement 0 cs

/-- Replaces every occurrence of `part`, which is not empty. -/
def replaceAll (part replacement cs : List Char) : List Char :=
  replaceFrom part replacement 0 cs

/-- Replaces every occurrence of `part`, which is not empty, in a text. -/
def replaceText (part replacement s : String) : String :=
  String.ofList (replaceAll part.toList replacement.toList s.toList)

/-- The pieces of a text between the characters that `isSeparator` accepts. -/
def splitOnChar (isSeparator : Char → Bool) : List Char → List (List Char)
  | [] => [[]]
  | c :: cs =>
    match splitOnChar isSeparator cs with
    | [] => [[c]]
    | piece :: pieces =>
      if isSeparator c then [] :: piece :: pieces else (c :: piece) :: pieces

theorem splitOnChar_ne_nil (isSeparator : Char → Bool) (cs : List Char) :
    splitOnChar isSeparator cs ≠ [] := by
  cases cs with
  | nil => simp [splitOnChar]
  | cons c cs =>
    unfold splitOnChar
    split
    · simp
    · split <;> simp

end ScrapeDiscovery.Text

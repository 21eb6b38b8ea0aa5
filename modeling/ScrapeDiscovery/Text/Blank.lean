/-!
# Blank characters

White space in the sense of Unicode's property of that name, and the trimming
of texts.
-/

namespace ScrapeDiscovery.Text

/-- White space of any script: tabulation, line ends, spaces of every width and the
two separators. -/
def isBlank (c : Char) : Bool :=
  let n := c.toNat
  (9 ≤ n && n ≤ 13) || n == 0x20 || n == 0x85 || n == 0xA0 || n == 0x1680 ||
  (0x2000 ≤ n && n ≤ 0x200A) || n == 0x2028 || n == 0x2029 || n == 0x202F ||
  n == 0x205F || n == 0x3000

/-- Drops blank characters at the end. -/
def trimEnd : List Char → List Char
  | [] => []
  | c :: cs =>
    match trimEnd cs with
    | [] => if isBlank c then [] else [c]
    | ds => c :: ds

/-- Drops blank characters at both ends. -/
def trim (cs : List Char) : List Char := trimEnd (cs.dropWhile isBlank)

/-- Whether nothing but blank characters is in `s`. -/
def isBlankText (s : String) : Bool := s.toList.all isBlank

/-- `s` without blank characters at its ends. -/
def trimText (s : String) : String := String.ofList (trim s.toList)

end ScrapeDiscovery.Text

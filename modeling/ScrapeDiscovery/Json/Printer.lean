import ScrapeDiscovery.Json.Basic

/-!
# Writing JSON

Two layouts: all on one line without blanks, and one item or member a line with
two spaces of indentation. Inside a text the quote, the backslash and control
characters are escaped and all else stands for itself.
-/

namespace ScrapeDiscovery.Json

/-- One character inside a text. -/
def escapeChar (c : Char) : List Char :=
  match c with
  | '"' => ['\\', '"']
  | '\\' => ['\\', '\\']
  | '\x08' => ['\\', 'b']
  | '\x0c' => ['\\', 'f']
  | '\n' => ['\\', 'n']
  | '\r' => ['\\', 'r']
  | '\t' => ['\\', 't']
  | c =>
    if c < ' ' then
      ['\\', 'u', '0', '0', Nat.digitChar (c.toNat / 16), Nat.digitChar (c.toNat % 16)]
    else [c]

/-- A text between quotes. -/
def quote (s : String) : String :=
  String.ofList ('"' :: (s.toList.flatMap escapeChar ++ ['"']))

/-- The opening brace of an object. -/
def openBrace : String := "\x7b"

/-- The closing brace of an object. -/
def closeBrace : String := "\x7d"

mutual

/-- The value on one line without blanks. -/
def compact : Json → String
  | .null => "null"
  | .bool b => if b then "true" else "false"
  | .number l => l
  | .text s => quote s
  | .list xs => "[" ++ compactItems xs ++ "]"
  | .object ms => openBrace ++ compactMembers ms ++ closeBrace

/-- Items with commas between them. -/
def compactItems : List Json → String
  | [] => ""
  | [x] => compact x
  | x :: xs => compact x ++ "," ++ compactItems xs

/-- Members with commas between them. -/
def compactMembers : List (String × Json) → String
  | [] => ""
  | [(k, v)] => quote k ++ ":" ++ compact v
  | (k, v) :: ms => quote k ++ ":" ++ compact v ++ "," ++ compactMembers ms

end

/-- A new line indented by `level` steps of two spaces. -/
def newLine (level : Nat) : String := String.ofList ('\n' :: List.replicate (2 * level) ' ')

mutual

/-- The value with one item or member a line, from indentation `level` on. -/
def prettyAt (level : Nat) : Json → String
  | .null => "null"
  | .bool b => if b then "true" else "false"
  | .number l => l
  | .text s => quote s
  | .list [] => "[]"
  | .list (x :: xs) => "[" ++ prettyItems (level + 1) (x :: xs) ++ newLine level ++ "]"
  | .object [] => openBrace ++ closeBrace
  | .object (m :: ms) =>
    openBrace ++ prettyMembers (level + 1) (m :: ms) ++ newLine level ++ closeBrace

/-- Items on lines of their own. -/
def prettyItems (level : Nat) : List Json → String
  | [] => ""
  | [x] => newLine level ++ prettyAt level x
  | x :: xs => newLine level ++ prettyAt level x ++ "," ++ prettyItems level xs

/-- Members on lines of their own. -/
def prettyMembers (level : Nat) : List (String × Json) → String
  | [] => ""
  | [(k, v)] => newLine level ++ quote k ++ ": " ++ prettyAt level v
  | (k, v) :: ms =>
    newLine level ++ quote k ++ ": " ++ prettyAt level v ++ "," ++ prettyMembers level ms

end

/-- The value with one item or member a line. -/
def pretty (j : Json) : String := prettyAt 0 j

end ScrapeDiscovery.Json

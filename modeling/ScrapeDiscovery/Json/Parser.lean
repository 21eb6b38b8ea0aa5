import ScrapeDiscovery.Json.Basic

/-!
# Reading JSON

A strict reader: no comments, no trailing commas, no blank characters but space,
tabulation and the two line ends, no unpaired surrogates and no control
characters inside a text. The recursion is bounded by the length of the
document, which is never the reason for a failure: every step takes at least one
character.
-/

namespace ScrapeDiscovery.Json

/-- Drops the blank characters that JSON allows between tokens. -/
def skipBlank (cs : List Char) : List Char :=
  cs.dropWhile fun c => c == ' ' || c == '\n' || c == '\t' || c == '\r'

/-- The number of four hexadecimal digits. -/
def hex4? (a b c d : Char) : Option Nat := do
  let a ← Text.digitValue 16 a
  let b ← Text.digitValue 16 b
  let c ← Text.digitValue 16 c
  let d ← Text.digitValue 16 d
  return ((a * 16 + b) * 16 + c) * 16 + d

/-- The character of a code point that is no surrogate. -/
def charOf? (n : Nat) : Option Char :=
  if h : n.isValidChar then some (Char.ofNatAux n h) else none

/-- The character of a short escape. -/
def shortEscape? : Char → Option Char
  | '"' => some '"'
  | '\\' => some '\\'
  | '/' => some '/'
  | 'b' => some '\x08'
  | 'f' => some '\x0c'
  | 'n' => some '\n'
  | 'r' => some '\r'
  | 't' => some '\t'
  | _ => none

/-- What an escaped code unit adds to a text: the first half of a surrogate pair, or a character.
`high` is the first half that it has to complete. -/
def codeUnit? (high : Option Nat) (n : Nat) : Option (Nat ⊕ Char) :=
  match high with
  | some h =>
    if 0xDC00 ≤ n && n < 0xE000 then
      (charOf? (0x10000 + (h - 0xD800) * 0x400 + (n - 0xDC00))).map .inr
    else none
  | none => if 0xD800 ≤ n && n < 0xDC00 then some (.inl n) else (charOf? n).map .inr

/-- Reads a text up to its closing quote. `high` is the first half of a surrogate pair whose
second half has to follow; `acc` holds the characters read, last one first. -/
def readText (high : Option Nat) (acc : List Char) : List Char → Option (String × List Char)
  | '\\' :: 'u' :: a :: b :: c :: d :: cs =>
    match (hex4? a b c d).bind (codeUnit? high) with
    | some (.inl h) => readText (some h) acc cs
    | some (.inr x) => readText none (x :: acc) cs
    | none => none
  | '\\' :: e :: cs =>
    match high, shortEscape? e with
    | none, some x => readText none (x :: acc) cs
    | _, _ => none
  | '"' :: cs => if high.isSome then none else some (String.ofList acc.reverse, cs)
  | c :: cs => if high.isSome || c < ' ' then none else readText none (c :: acc) cs
  | [] => none

/-- Whether `c` is a decimal digit. -/
def isDigit (c : Char) : Bool := '0' ≤ c && c ≤ '9'

/-- Splits off at least one digit. -/
def readDigits? (cs : List Char) : Option (List Char × List Char) :=
  match cs.takeWhile isDigit with
  | [] => none
  | ds => some (ds, cs.dropWhile isDigit)

/-- Splits off the whole part of a number: zero, or digits that do not begin with one. -/
def readWhole? : List Char → Option (List Char × List Char)
  | '0' :: cs => if (cs.head?.map isDigit).getD false then none else some (['0'], cs)
  | cs => readDigits? cs

/-- Splits off a fraction, if there is one. -/
def readFraction? : List Char → Option (List Char × List Char)
  | '.' :: cs => (readDigits? cs).map fun (ds, rest) => ('.' :: ds, rest)
  | cs => some ([], cs)

/-- Splits off an exponent, if there is one. -/
def readExponent? : List Char → Option (List Char × List Char)
  | e :: cs =>
    if e = 'e' || e = 'E' then
      match cs with
      | '+' :: ds => (readDigits? ds).map fun (ds, rest) => (e :: '+' :: ds, rest)
      | '-' :: ds => (readDigits? ds).map fun (ds, rest) => (e :: '-' :: ds, rest)
      | ds => (readDigits? ds).map fun (ds, rest) => (e :: ds, rest)
    else some ([], e :: cs)
  | [] => some ([], [])

/-- Splits off a number. -/
def readNumber? (cs : List Char) : Option (String × List Char) := do
  let (sign, cs) := match cs with
    | '-' :: cs => (['-'], cs)
    | cs => ([], cs)
  let (whole, cs) ← readWhole? cs
  let (fraction, cs) ← readFraction? cs
  let (exponent, cs) ← readExponent? cs
  return (String.ofList (sign ++ whole ++ fraction ++ exponent), cs)

mutual

/-- Reads one value. -/
def readValue : (fuel : Nat) → List Char → Option (Json × List Char)
  | 0, _ => none
  | fuel + 1, cs =>
    match skipBlank cs with
    | 'n' :: 'u' :: 'l' :: 'l' :: cs => some (.null, cs)
    | 't' :: 'r' :: 'u' :: 'e' :: cs => some (.bool true, cs)
    | 'f' :: 'a' :: 'l' :: 's' :: 'e' :: cs => some (.bool false, cs)
    | '"' :: cs => (readText none [] cs).map fun (s, cs) => (.text s, cs)
    | '[' :: cs =>
      match skipBlank cs with
      | ']' :: cs => some (.list [], cs)
      | cs => (readItems fuel cs).map fun (xs, cs) => (.list xs, cs)
    | '\x7b' :: cs =>
      match skipBlank cs with
      | '\x7d' :: cs => some (.object [], cs)
      | cs => (readMembers fuel cs).map fun (ms, cs) => (.object ms, cs)
    | cs => (readNumber? cs).map fun (l, cs) => (.number l, cs)

/-- Reads the items of a list up to its closing bracket. -/
def readItems : (fuel : Nat) → List Char → Option (List Json × List Char)
  | 0, _ => none
  | fuel + 1, cs => do
    let (x, cs) ← readValue fuel cs
    match skipBlank cs with
    | ',' :: cs =>
      let (xs, cs) ← readItems fuel cs
      return (x :: xs, cs)
    | ']' :: cs => return ([x], cs)
    | _ => none

/-- Reads the members of an object up to its closing brace. -/
def readMembers : (fuel : Nat) → List Char → Option (List (String × Json) × List Char)
  | 0, _ => none
  | fuel + 1, cs => do
    match skipBlank cs with
    | '"' :: cs =>
      let (k, cs) ← readText none [] cs
      match skipBlank cs with
      | ':' :: cs =>
        let (v, cs) ← readValue fuel cs
        match skipBlank cs with
        | ',' :: cs =>
          let (ms, cs) ← readMembers fuel cs
          return ((k, v) :: ms, cs)
        | '\x7d' :: cs => return ([(k, v)], cs)
        | _ => none
      | _ => none
    | _ => none

end

/-- Reads a document that holds one value. -/
def parse (document : String) : Option Json :=
  let cs := document.toList
  match readValue (cs.length + 1) cs with
  | some (j, rest) => if (skipBlank rest).isEmpty then some j else none
  | none => none

end ScrapeDiscovery.Json

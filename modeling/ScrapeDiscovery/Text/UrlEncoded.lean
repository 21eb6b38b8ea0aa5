import ScrapeDiscovery.Text.Search
import ScrapeDiscovery.Text.Utf8

/-!
# Pairs in the query of an address

A query is a list of names and values, written `name=value` with `&` between
them. A space is written `+`, and every byte that is not a letter, a digit or one
of `*`, `-`, `.` and `_` is written in hexadecimal after a `%`. Reading takes
whatever it finds: a `%` that is not followed by two digits stands for itself,
and bytes that are no text are replaced.
-/

namespace ScrapeDiscovery.Text

/-- The bytes of a text in UTF-8. -/
def utf8Bytes (s : String) : List Nat := s.toUTF8.toList.map UInt8.toNat

/-- The value of a byte that is a hexadecimal digit. -/
def hexByte? (b : Nat) : Option Nat :=
  if 48 ≤ b && b ≤ 57 then some (b - 48)
  else if 65 ≤ b && b ≤ 70 then some (b - 55)
  else if 97 ≤ b && b ≤ 102 then some (b - 87)
  else none

/-- The byte of `%`. -/
def percentByte : Nat := 37

/-- Decodes bytes written after a `%`. -/
def decodePercent : List Nat → List Nat
  | b :: h :: l :: rest =>
    if b = percentByte then
      match hexByte? h, hexByte? l with
      | some x, some y => (x * 16 + y) :: decodePercent rest
      | _, _ => b :: decodePercent (h :: l :: rest)
    else b :: decodePercent (h :: l :: rest)
  | bs => bs

/-- The text that a name or a value stands for. -/
def decodeQueryPart (cs : List Char) : String :=
  let spaced := cs.map fun c => if c = '+' then ' ' else c
  decodeUtf8Lossy (decodePercent (utf8Bytes (String.ofList spaced)))

/-- The name and the value of a piece, split at the first `=`. -/
def decodeQueryPiece (piece : List Char) : String × String :=
  (decodeQueryPart (piece.takeWhile (· ≠ '=')),
    decodeQueryPart ((piece.dropWhile (· ≠ '=')).drop 1))

/-- The pairs of a query. -/
def decodeQuery (query : String) : List (String × String) :=
  ((splitOnChar (· == '&') query.toList).filter (!·.isEmpty)).map decodeQueryPiece

/-- A hexadecimal digit, large. -/
def hexDigit (n : Nat) : Char := if n < 10 then Char.ofNat (48 + n) else Char.ofNat (55 + n)

/-- A byte after a `%`. -/
def percentEncode (b : Nat) : List Char := ['%', hexDigit (b / 16), hexDigit (b % 16)]

/-- Whether a byte is written as it is in a query. -/
def isQueryByte (b : Nat) : Bool :=
  (48 ≤ b && b ≤ 57) || (65 ≤ b && b ≤ 90) || (97 ≤ b && b ≤ 122) ||
    b = 42 || b = 45 || b = 46 || b = 95

/-- A byte as it is written in a query. -/
def encodeQueryByte (b : Nat) : List Char :=
  if isQueryByte b then [Char.ofNat b] else if b = 32 then ['+'] else percentEncode b

/-- A name or a value as it is written in a query. -/
def encodeQueryPart (s : String) : List Char := (utf8Bytes s).flatMap encodeQueryByte

/-- The query of a list of pairs. -/
def encodeQuery (pairs : List (String × String)) : String :=
  String.ofList
    (['&'].intercalate (pairs.map fun p => encodeQueryPart p.1 ++ '=' :: encodeQueryPart p.2))

end ScrapeDiscovery.Text

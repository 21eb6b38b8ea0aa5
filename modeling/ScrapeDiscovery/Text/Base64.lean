/-!
# Base64

Bytes written with the letters `A` to `Z`, `a` to `z`, the digits, `+` and `/`,
four characters for three bytes and `=` for what is missing at the end. Reading
is strict: padding has to be complete, and the bits that a last character has to
spare have to be zero, so each sequence of bytes has one spelling.
-/

namespace ScrapeDiscovery.Text

/-- The value of a letter. -/
def base64Value? (c : Char) : Option Nat :=
  if 'A' ≤ c && c ≤ 'Z' then some (c.toNat - 65)
  else if 'a' ≤ c && c ≤ 'z' then some (c.toNat - 97 + 26)
  else if '0' ≤ c && c ≤ '9' then some (c.toNat - 48 + 52)
  else if c = '+' then some 62
  else if c = '/' then some 63
  else none

/-- Reads groups of four characters. Only the last one may have padding. -/
def decodeBase64Groups : List Char → Option (List Nat)
  | [] => some []
  | [a, b, '=', '='] => do
    let x ← base64Value? a
    let y ← base64Value? b
    if y % 16 = 0 then some [x * 4 + y / 16] else none
  | [a, b, c, '='] => do
    let x ← base64Value? a
    let y ← base64Value? b
    let z ← base64Value? c
    if z % 4 = 0 then some [x * 4 + y / 16, y % 16 * 16 + z / 4] else none
  | a :: b :: c :: d :: rest => do
    let x ← base64Value? a
    let y ← base64Value? b
    let z ← base64Value? c
    let w ← base64Value? d
    let bytes ← decodeBase64Groups rest
    return (x * 4 + y / 16) :: (y % 16 * 16 + z / 4) :: (z % 4 * 64 + w) :: bytes
  | _ => none

/-- The bytes of a base64 text. -/
def decodeBase64? (s : String) : Option (List Nat) := decodeBase64Groups s.toList

end ScrapeDiscovery.Text

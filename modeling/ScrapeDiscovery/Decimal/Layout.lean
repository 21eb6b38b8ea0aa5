import ScrapeDiscovery.Decimal.Shortest

/-!
# Decimals as text

Two layouts of the shortest decimal of a double. The positional one writes every
digit at its place. The other one is for JSON: positional with a fraction, which
may be zero, for numbers from `10 ^ -5` up to `10 ^ 16`, and with an exponent for
all else.
-/

namespace ScrapeDiscovery

namespace Decimal

/-- The digits of a decimal. -/
def digitText (d : Decimal) : List Char := Nat.toDigits 10 d.digits

/-- The exponent of the highest digit. -/
def highExponent (d : Decimal) : Int := d.digitText.length + d.exponent - 1

/-- Zeros. -/
def zeros (n : Nat) : List Char := List.replicate n '0'

/-- Every digit at its place, and a fraction only where there are digits for it. -/
def positional (d : Decimal) : List Char :=
  let ds := d.digitText
  if 0 ≤ d.exponent then ds ++ zeros d.exponent.toNat
  else
    let places := (-d.exponent).toNat
    if places < ds.length then ds.take (ds.length - places) ++ '.' :: ds.drop (ds.length - places)
    else '0' :: '.' :: (zeros (places - ds.length) ++ ds)

/-- One digit before the point, and an exponent with its sign. -/
def scientific (d : Decimal) : List Char :=
  let mantissa :=
    match d.digitText with
    | [c] => [c]
    | c :: cs => c :: '.' :: cs
    | [] => []
  let top := d.highExponent
  mantissa ++ 'e' :: (if top < 0 then '-' else '+') :: Nat.toDigits 10 top.natAbs

/-- The layout of numbers in JSON. -/
def jsonText (d : Decimal) : List Char :=
  let top := d.highExponent
  if -5 ≤ top && top ≤ 15 then
    if 0 ≤ d.exponent then d.positional ++ ['.', '0'] else d.positional
  else d.scientific

/-- The sign of a text. -/
def signed (negative : Bool) (cs : List Char) : String :=
  String.ofList (if negative then '-' :: cs else cs)

end Decimal

namespace Double

/-- A number as plain text. -/
def plainText : Double → String
  | .nan => "NaN"
  | .infinite negative => Decimal.signed negative ['i', 'n', 'f']
  | .finite negative m e => Decimal.signed negative (Decimal.shortest m e).positional

end Double

end ScrapeDiscovery

import ScrapeDiscovery.Decimal.Double

/-!
# Doubles written in decimal

A numeral is an optional sign, digits with at most one point among them, and an
optional exponent; there is at least one digit before or after the point. The
names of infinity and of what is not a number count too, in any case of letters.
-/

namespace ScrapeDiscovery.Double

/-- Splits off the decimal digits at the beginning. -/
def splitDigits (cs : List Char) : List Char × List Char :=
  (cs.takeWhile Char.isDigit, cs.dropWhile Char.isDigit)

/-- The number of decimal digits. -/
def digitsValue (ds : List Char) : Nat := ds.foldl (fun n c => 10 * n + (c.toNat - '0'.toNat)) 0

/-- The exponent that a text ends with: none at all is zero. -/
def readExponent? : List Char → Option Int
  | [] => some 0
  | e :: cs =>
    let (negative, cs) :=
      match cs with
      | '-' :: cs => (true, cs)
      | '+' :: cs => (false, cs)
      | cs => (false, cs)
    if (e = 'e' || e = 'E') && !cs.isEmpty && cs.all Char.isDigit then
      some (if negative then -(digitsValue cs : Int) else digitsValue cs)
    else none

/-- Reads a numeral without a sign. -/
def readMagnitude? (negative : Bool) (cs : List Char) : Option Double :=
  let name := cs.map Char.toLower
  if name = "inf".toList || name = "infinity".toList then some (.infinite negative)
  else if name = "nan".toList then some .nan
  else
    let (whole, rest) := splitDigits cs
    let (fraction, rest) :=
      match rest with
      | '.' :: rest => splitDigits rest
      | rest => ([], rest)
    if whole.isEmpty && fraction.isEmpty then none
    else
      (readExponent? rest).map fun e =>
        ofDecimal negative (digitsValue (whole ++ fraction)) (e - fraction.length)

/-- Reads a numeral. -/
def parse? (s : String) : Option Double :=
  match s.toList with
  | '-' :: cs => readMagnitude? true cs
  | '+' :: cs => readMagnitude? false cs
  | cs => readMagnitude? false cs

end ScrapeDiscovery.Double

/-!
# Numbers in double precision

A double is a sign and `significand · 2 ^ exponent` with a significand below
`2 ^ 53`, or an infinity, or not a number. A quotient of natural numbers is
rounded to the nearest double, a tie to the even significand, in exact
arithmetic.
-/

namespace ScrapeDiscovery

/-- A number in double precision. -/
inductive Double where
  | nan
  | infinite (negative : Bool)
  /-- The number `significand · 2 ^ exponent` with a sign. -/
  | finite (negative : Bool) (significand : Nat) (exponent : Int)
  deriving DecidableEq, Repr

namespace Double

/-- The quotient rounded to the nearest integer, a tie to the even one. -/
def roundDiv (num den : Nat) : Nat :=
  let q := num / den
  let r := num % den
  if 2 * r < den then q
  else if den < 2 * r then q + 1
  else if q % 2 = 0 then q
  else q + 1

/-- The least exponent: that of the smallest positive double. -/
def leastExponent : Int := -1074

/-- The greatest exponent of a finite double. -/
def greatestExponent : Int := 971

/-- The significand of a normal double has this bit, `2 ^ 52`, as its highest. -/
def leadingBit : Nat := 4503599627370496

/-- The quotient `num / den · 2 ^ -exponent`, rounded. -/
def scaledSignificand (num den : Nat) (exponent : Int) : Nat :=
  if 0 ≤ exponent then roundDiv num (den * Nat.pow 2 exponent.toNat)
  else roundDiv (num * Nat.pow 2 (-exponent).toNat) den

/-- The exponent with which the quotient has a significand of 53 bits before rounding, or the
least one. -/
def exponentOf (num den : Nat) : Int :=
  let guess : Int := (num.log2 : Int) - den.log2 - 53
  let truncated :=
    if 0 ≤ guess then num / (den * Nat.pow 2 guess.toNat)
    else num * Nat.pow 2 (-guess).toNat / den
  max leastExponent (if truncated < 2 * leadingBit then guess else guess + 1)

/-- The zero of a sign. -/
def zero (negative : Bool) : Double := .finite negative 0 leastExponent

/-- The double nearest to `num / den` with a sign. -/
def ofRatio (negative : Bool) (num den : Nat) : Double :=
  if num = 0 then zero negative
  else
    let exponent := exponentOf num den
    let significand := scaledSignificand num den exponent
    let (significand, exponent) :=
      if significand = 2 * leadingBit then (leadingBit, exponent + 1) else (significand, exponent)
    if greatestExponent < exponent then .infinite negative
    else .finite negative significand exponent

/-- The double nearest to a natural number. -/
def ofNat (n : Nat) : Double := ofRatio false n 1

/-- The double nearest to `digits · 10 ^ exponent` with a sign. A number that is far outside of
the range of the finite positive doubles is settled by its count of digits. -/
def ofDecimal (negative : Bool) (digits : Nat) (exponent : Int) : Double :=
  let places := (Nat.toDigits 10 digits).length + exponent
  if digits = 0 || places < -400 then zero negative
  else if 400 < places then .infinite negative
  else if 0 ≤ exponent then ofRatio negative (digits * Nat.pow 10 exponent.toNat) 1
  else ofRatio negative digits (Nat.pow 10 (-exponent).toNat)

/-- The magnitude of a finite double as a quotient. -/
def ratio (significand : Nat) (exponent : Int) : Nat × Nat :=
  if 0 ≤ exponent then (significand * Nat.pow 2 exponent.toNat, 1)
  else (significand, Nat.pow 2 (-exponent).toNat)

/-- The product of finite numbers, rounded; what is not finite stays as it is. -/
def mul : Double → Double → Double
  | .finite s m e, .finite s' m' e' =>
    let (num, den) := ratio (m * m') (e + e')
    ofRatio (s != s') num den
  | .finite _ _ _, y => y
  | x, _ => x

/-- The quotient of finite numbers, rounded; what is not finite stays as it is. -/
def div : Double → Double → Double
  | .finite s m e, .finite s' m' e' =>
    let (num, den) := ratio m (e - e')
    ofRatio (s != s') num (den * m')
  | .finite _ _ _, y => y
  | x, _ => x

/-- The number with the other sign. -/
def neg : Double → Double
  | .nan => .nan
  | .infinite s => .infinite (!s)
  | .finite s m e => .finite (!s) m e

/-- Whether the number is zero, of either sign. -/
def isZero : Double → Bool
  | .finite _ m _ => m == 0
  | _ => false

/-- Whether the number is an infinity. -/
def isInfinite : Double → Bool
  | .infinite _ => true
  | _ => false

/-- The nearest natural number, a half rounded up; none of an infinity, and zero of what is
below and of what is no number. -/
def roundToNat? : Double → Option Nat
  | .nan => some 0
  | .infinite negative => if negative then some 0 else none
  | .finite true _ _ => some 0
  | .finite false m e =>
    let (num, den) := ratio m e
    some ((2 * num + den) / (2 * den))

end Double

end ScrapeDiscovery

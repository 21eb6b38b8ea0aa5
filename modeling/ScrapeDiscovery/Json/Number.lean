import ScrapeDiscovery.Decimal.Layout
import ScrapeDiscovery.Decimal.Numeral
import ScrapeDiscovery.Json.Basic

/-!
# The numbers of JSON

A number without fraction and exponent is an integer as long as it fits in 64
bits, with a sign where it is negative. Every other number is a double: the
digits that fit in 64 bits are taken as a natural number, rounded, and scaled by
a power of ten with a second rounding. A number beyond the doubles is none.
-/

namespace ScrapeDiscovery.Json

/-- A number that was read. -/
inductive Number where
  | integer (value : Int)
  | double (value : Double)
  deriving DecidableEq, Repr

namespace Number

/-- The greatest number of 64 bits. -/
def most : Nat := 18446744073709551615

/-- Takes digits as long as the number fits in 64 bits; the rest is left over. -/
def accumulate : Nat → List Char → Nat × List Char
  | n, [] => (n, [])
  | n, c :: cs =>
    let next := 10 * n + (c.toNat - '0'.toNat)
    if most < next then (n, c :: cs) else accumulate next cs

/-- A power of ten as a double. -/
def powerOfTen (n : Nat) : Double := Double.ofRatio false (Nat.pow 10 n) 1

/-- The number divided by a power of ten, in steps that are doubles themselves. -/
def scaleDown (x : Double) (n : Nat) : Double :=
  if n ≤ 308 then x.div (powerOfTen n)
  else if x.isZero then x
  else scaleDown (x.div (powerOfTen 308)) (n - 308)
termination_by n

/-- The number times a power of ten, unless it is beyond the doubles. -/
def scaleUp? (x : Double) (n : Nat) : Option Double :=
  if n ≤ 308 then
    let y := x.mul (powerOfTen n)
    if y.isInfinite then none else some y
  else if x.isZero then some x
  else none

/-- The number `digits · 10 ^ exponent`, unless it is beyond the doubles. -/
def scaled? (digits : Nat) (exponent : Int) : Option Double :=
  let x := Double.ofNat digits
  if 0 ≤ exponent then scaleUp? x exponent.toNat else some (scaleDown x (-exponent).toNat)

/-- The greatest exponent that is counted. -/
def mostExponent : Int := 2147483647

/-- The number with a written exponent. One that is too great to be counted makes zero of zero
and of a number with a negative exponent. -/
def withExponent? (digits : Nat) (exponent written : Int) : Option Double :=
  if mostExponent < written.natAbs then
    if digits ≠ 0 && 0 < written then none else some (Double.zero false)
  else scaled? digits (max (-mostExponent - 1) (min mostExponent (exponent + written)))

/-- The double of a number with a fraction, an exponent or more digits than fit. -/
def magnitude? (whole fraction : List Char) (written : Option Int) : Option Double :=
  let (n, left) := accumulate 0 whole
  let (n, dropped) := accumulate n fraction
  let exponent : Int := (left.length : Int) - ((fraction.length : Int) - dropped.length)
  match written with
  | none => scaled? n exponent
  | some e => withExponent? n exponent e

/-- The integer of a sign and a natural number. Minus zero and what does not fit is none. -/
def integer? (negative : Bool) (n : Nat) : Option Int :=
  if negative then
    if n ≠ 0 && n ≤ 9223372036854775808 then some (-n) else none
  else if n ≤ most then some n
  else none

/-- The number of a lexeme, unless it is beyond the doubles. -/
def ofLexeme? (lexeme : String) : Option Number :=
  let (negative, cs) :=
    match lexeme.toList with
    | '-' :: cs => (true, cs)
    | cs => (false, cs)
  let (whole, rest) := Double.splitDigits cs
  let (fraction, rest) :=
    match rest with
    | '.' :: rest => Double.splitDigits rest
    | rest => ([], rest)
  let written := if rest.isEmpty then none else Double.readExponent? rest
  let integer :=
    if fraction.isEmpty && written.isNone then integer? negative (Double.digitsValue whole)
    else none
  match integer with
  | some n => some (.integer n)
  | none =>
    (magnitude? whole fraction written).map fun x => .double (if negative then x.neg else x)

/-- A number as it is written. -/
def lexeme : Number → String
  | .integer n => toString n
  | .double (.finite negative m e) => Decimal.signed negative (Decimal.shortest m e).jsonText
  | .double _ => "null"

end Number

mutual

/-- The value with every number read and written again, unless one is beyond the doubles. -/
def settleNumbers? : Json → Option Json
  | .list xs => (settleItems? xs).map .list
  | .object ms => (settleMembers? ms).map .object
  | .number l => (Number.ofLexeme? l).map fun n => .number n.lexeme
  | .null => some .null
  | .bool b => some (.bool b)
  | .text s => some (.text s)

/-- The items with every number read and written again. -/
def settleItems? : List Json → Option (List Json)
  | [] => some []
  | x :: xs =>
    match settleNumbers? x, settleItems? xs with
    | some x, some xs => some (x :: xs)
    | _, _ => none

/-- The members with every number read and written again. -/
def settleMembers? : List (String × Json) → Option (List (String × Json))
  | [] => some []
  | (k, v) :: ms =>
    match settleNumbers? v, settleMembers? ms with
    | some v, some ms => some ((k, v) :: ms)
    | _, _ => none

end

end ScrapeDiscovery.Json

import ScrapeDiscovery.Decimal.Double

/-!
# The shortest decimal of a double

Of the decimals that are rounded back to a double, the one with the fewest
digits, and of these the nearest. For one digit, two, and so on the two
neighbours of the number on the grid of decimals with that many digits are
tested in exact arithmetic; the first grid with a hit wins.
-/

namespace ScrapeDiscovery

/-- The decimal `digits · 10 ^ exponent`. -/
structure Decimal where
  digits : Nat
  exponent : Int
  deriving DecidableEq, Repr

namespace Decimal

/-- The numbers that are rounded to one double, as quotients by a common denominator: its
magnitude `value / den`, the ends of the interval around it, and whether these belong to it. -/
structure Interval where
  low : Nat
  value : Nat
  high : Nat
  den : Nat
  closed : Bool

/-- The interval of `significand · 2 ^ exponent`. Below a power of two the gap is half as wide. -/
def Interval.ofDouble (significand : Nat) (exponent : Int) : Interval :=
  let (scale, den) := Double.ratio 1 (exponent - 2)
  let below :=
    if significand = Double.leadingBit && Double.leastExponent < exponent then 1 else 2
  { low := (4 * significand - below) * scale, value := 4 * significand * scale
    high := (4 * significand + 2) * scale, den, closed := significand % 2 == 0 }

/-- Whether `num / den` lies in the interval. -/
def Interval.contains (i : Interval) (num den : Nat) : Bool :=
  let lhs := num * i.den
  if i.closed then i.low * den ≤ lhs && lhs ≤ i.high * den
  else i.low * den < lhs && lhs < i.high * den

/-- Whether the decimal lies in the interval. -/
def Interval.containsDecimal (i : Interval) (d : Decimal) : Bool :=
  if 0 ≤ d.exponent then i.contains (d.digits * Nat.pow 10 d.exponent.toNat) 1
  else i.contains d.digits (Nat.pow 10 (-d.exponent).toNat)

/-- The greatest multiple of `10 ^ exponent` that is not above the value, in units of
`10 ^ exponent`, and whether the next one is nearer: of two equally near ones the upper. -/
def Interval.floorAt (i : Interval) (exponent : Int) : Nat × Bool :=
  let (num, den) :=
    if 0 ≤ exponent then (i.value, i.den * Nat.pow 10 exponent.toNat)
    else (i.value * Nat.pow 10 (-exponent).toNat, i.den)
  (num / den, den ≤ 2 * (num % den))

/-- A decimal of the grid `10 ^ exponent` in the interval, the nearest one to the value. -/
def Interval.pick? (i : Interval) (exponent : Int) : Option Decimal :=
  let (floor, upperIsNearer) := i.floorAt exponent
  let lower : Decimal := ⟨floor, exponent⟩
  let upper : Decimal := ⟨floor + 1, exponent⟩
  let (first, second) := if upperIsNearer then (upper, lower) else (lower, upper)
  if i.containsDecimal first then some first
  else if i.containsDecimal second then some second
  else none

/-- The exponent of the highest digit of the value. -/
def Interval.topExponent (i : Interval) : Int :=
  let scaled := i.value * Nat.pow 10 400 / i.den
  ((Nat.toDigits 10 scaled).length : Int) - 401

/-- The decimal of a grid with at least `count` digits, the coarsest one with a hit. -/
def Interval.shortestFrom (i : Interval) (top : Int) : (grids count : Nat) → Decimal
  | 0, count => ⟨(i.floorAt (top + 1 - count)).1, top + 1 - count⟩
  | grids + 1, count =>
    match i.pick? (top + 1 - count) with
    | some d => d
    | none => i.shortestFrom top grids (count + 1)

/-- Moves the zeros at the end of the digits to the exponent. -/
def strip : (fuel : Nat) → Decimal → Decimal
  | 0, d => d
  | fuel + 1, d =>
    if d.digits ≠ 0 && d.digits % 10 = 0 then strip fuel ⟨d.digits / 10, d.exponent + 1⟩ else d

/-- The shortest decimal of `significand · 2 ^ exponent`: seventeen digits always suffice. -/
def shortest (significand : Nat) (exponent : Int) : Decimal :=
  if significand = 0 then ⟨0, 0⟩
  else
    let i := Interval.ofDouble significand exponent
    strip 20 (i.shortestFrom i.topExponent 17 1)

end Decimal

end ScrapeDiscovery

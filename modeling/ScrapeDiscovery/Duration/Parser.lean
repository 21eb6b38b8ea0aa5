import ScrapeDiscovery.Duration.Basic
import ScrapeDiscovery.Text.Blank

/-!
# Reading durations

A written duration is a sequence of numbers with units, such as `1h 30m` or
`1.5d`. Blanks may stand before a number and inside it, and one blank ends a
unit; a number ends where a unit begins, and a unit ends where the next number
begins, so `2s1s` is three seconds. The bare text `0` is the empty duration.

The reader takes one character at a time and always stands in one of the phases
of `Phase`.
-/

namespace ScrapeDiscovery.Duration

/-- The digits after a decimal point, as a fraction: `25` of `100`. -/
structure Fraction where
  numerator : Nat
  denominator : Nat
  deriving DecidableEq, Repr

/-- What the reader has before it. -/
inductive Phase where
  /-- A number; the search for it began at `position`. `anyRead` once a number with its unit
  has been read. -/
  | number (position : Nat) (anyRead : Bool)
  /-- More digits of the whole part, or what ends it. -/
  | whole (value : Nat)
  /-- More digits after the point. `position` is where the last character read into the
  fraction ends, or the place of the point itself. -/
  | fraction (value : Nat) (digits : Fraction) (position : Nat)
  /-- More letters of the unit. -/
  | unit (value : Nat) (digits : Option Fraction) (name : List Char)
  deriving DecidableEq, Repr

/-- The letters that a unit may have. -/
def isUnitLetter (c : Char) : Bool :=
  ('a' ≤ c && c ≤ 'z') || ('A' ≤ c && c ≤ 'Z') || c == 'µ'

/-- Whether `c` is a decimal digit. -/
def isDigit (c : Char) : Bool := '0' ≤ c && c ≤ '9'

/-- The value of a decimal digit. -/
def digit (c : Char) : Nat := c.toNat - '0'.toNat

/-- `value` times an amount, if it fits into 64 bits. -/
def Amount.times (value : Nat) : Amount → Except Fault Amount
  | .nanos n => (fit (value * n)).map .nanos
  | .secs n => (fit (value * n)).map .secs

/-- A fraction of an amount, if it comes out whole and its numerator fits into 64 bits on
the way. -/
def Amount.part (digits : Fraction) (a : Amount) : Except Fault Amount := do
  let whole (n : Nat) : Except Fault Nat :=
    if n % digits.denominator = 0 then .ok (n / digits.denominator) else .error .notRepresentable
  match ← a.times digits.numerator with
  | .nanos n => (whole n).map .nanos
  | .secs n => (whole n).map .secs

/-- Adds a number with its unit to what has been read. -/
def addTerm (out : Duration) (value : Nat) (digits : Option Fraction) (name : List Char) :
    Except Fault Duration := do
  if name.isEmpty then throw (.unitNeeded value)
  match TimeUnit.ofName? (String.ofList name) with
  | none => throw (.unknownUnit (String.ofList name))
  | some unit =>
    let out ← out.plus (← unit.amount.times value)
    match digits with
    | none => return out
    | some digits =>
      match unit.fractionAmount with
      | none => throw .notRepresentable
      | some a => out.plus (← a.part digits)

/-- The fraction with one more digit. A digit counts in the denominator at once and in the
numerator from the first that is not zero. -/
def Fraction.push (f : Fraction) (c : Char) : Except Fault Fraction := do
  let denominator ← fit (f.denominator * 10)
  let numerator ← fit (f.numerator * 10)
  return ⟨← fit (numerator + digit c), denominator⟩

/-- Reads from `pos` on, in a phase, adding to `out`. -/
def scan : Phase → Duration → Nat → List Char → Except Fault Duration
  | .number _ anyRead, out, _, [] => if anyRead then .ok out else .error .empty
  | .whole value, out, _, [] => addTerm out value none []
  | .fraction value digits position, out, _, [] =>
    if digits.denominator = 1 then .error (.invalidCharacter position)
    else addTerm out value (some digits) []
  | .unit value digits name, out, _, [] => addTerm out value digits name
  | phase, out, pos, c :: cs =>
    let next := pos + c.utf8Size
    match phase with
    | .number position anyRead =>
      if isDigit c then scan (.whole (digit c)) out next cs
      else if Text.isBlank c then scan (.number position anyRead) out next cs
      else .error (.numberExpected position)
    | .whole value =>
      if isDigit c then do
        let value ← fit (value * 10 + digit c)
        scan (.whole value) out next cs
      else if Text.isBlank c then scan (.whole value) out next cs
      else if isUnitLetter c then scan (.unit value none [c]) out next cs
      else if c = '.' then scan (.fraction value ⟨0, 1⟩ pos) out next cs
      else .error (.invalidCharacter pos)
    | .fraction value digits position =>
      if isDigit c then do
        let digits ← digits.push c
        scan (.fraction value digits next) out next cs
      else if Text.isBlank c then scan (.fraction value digits next) out next cs
      else if isUnitLetter c then
        if digits.denominator = 1 then .error (.invalidCharacter position)
        else scan (.unit value (some digits) [c]) out next cs
      else .error (.invalidCharacter position)
    | .unit value digits name =>
      if isDigit c then do
        let out ← addTerm out value digits name
        scan (.whole (digit c)) out next cs
      else if Text.isBlank c then do
        let out ← addTerm out value digits name
        scan (.number next true) out next cs
      else if isUnitLetter c then scan (.unit value digits (name ++ [c])) out next cs
      else .error (.invalidCharacter pos)

/-- Reads a written duration. -/
def parse (s : String) : Except Fault Duration :=
  if s = "0" then .ok zero else scan (.number 0 false) zero 0 s.toList

end ScrapeDiscovery.Duration

/-!
# Integers written in a radix

A numeral is an optional sign and digits of a radix, read from left to right
into a range of integers. The reader stops at the first fault: a character that
is no digit, or a digit with which the number leaves the range.

Results:
* `readInt_bounds`: a number that is read lies in the range.
-/

namespace ScrapeDiscovery.Text

/-- Why a text is not an integer of a range. -/
inductive NumeralError where
  /-- There is no character. -/
  | empty
  /-- A character is no digit of the radix, or digits are missing. -/
  | invalidDigit
  /-- The number is above the range. -/
  | tooLarge
  /-- The number is below the range. -/
  | tooSmall
  deriving DecidableEq, Repr

/-- The wording of a numeral's fault. -/
def NumeralError.message : NumeralError → String
  | .empty => "cannot parse integer from empty string"
  | .invalidDigit => "invalid digit found in string"
  | .tooLarge => "number too large to fit in target type"
  | .tooSmall => "number too small to fit in target type"

/-- A range of integers, both ends included. -/
structure IntRange where
  lo : Int
  hi : Int
  deriving DecidableEq, Repr

/-- Signed numbers of 32 bits. -/
def IntRange.int32 : IntRange := ⟨-2147483648, 2147483647⟩

/-- Signed numbers of 64 bits. -/
def IntRange.int64 : IntRange := ⟨-9223372036854775808, 9223372036854775807⟩

/-- Numbers of 64 bits without a sign. -/
def IntRange.nat64 : IntRange := ⟨0, 18446744073709551615⟩

/-- Numbers of 16 bits without a sign. -/
def IntRange.nat16 : IntRange := ⟨0, 65535⟩

/-- Signed numbers of 128 bits. -/
def IntRange.int128 : IntRange :=
  ⟨-170141183460469231731687303715884105728, 170141183460469231731687303715884105727⟩

/-- Numbers of 128 bits without a sign. -/
def IntRange.nat128 : IntRange := ⟨0, 340282366920938463463374607431768211455⟩

/-- The value of a digit below `radix`, letters counting on from ten in either case. -/
def digitValue (radix : Nat) (c : Char) : Option Nat :=
  let v :=
    if '0' ≤ c && c ≤ '9' then some (c.toNat - '0'.toNat)
    else if 'a' ≤ c && c ≤ 'z' then some (c.toNat - 'a'.toNat + 10)
    else if 'A' ≤ c && c ≤ 'Z' then some (c.toNat - 'A'.toNat + 10)
    else none
  v.filter (· < radix)

/-- Reads the digits after a sign on to `acc`, upward or downward, as long as the number
stays in the range. -/
def readDigits (radix : Nat) (range : IntRange) (negative : Bool) :
    Int → List Char → Except NumeralError Int
  | acc, [] => .ok acc
  | acc, c :: cs =>
    match digitValue radix c with
    | none => .error .invalidDigit
    | some d =>
      if negative then
        let next := acc * radix - d
        if next < range.lo then .error .tooSmall else readDigits radix range negative next cs
      else
        let next := acc * radix + d
        if range.hi < next then .error .tooLarge else readDigits radix range negative next cs

/-- Reads a numeral. A minus sign is one only where the range has negative numbers. -/
def readInt (radix : Nat) (range : IntRange) : List Char → Except NumeralError Int
  | [] => .error .empty
  | ['+'] => .error .invalidDigit
  | ['-'] => .error .invalidDigit
  | '+' :: cs => readDigits radix range false 0 cs
  | '-' :: cs =>
    if range.lo < 0 then readDigits radix range true 0 cs else .error .invalidDigit
  | cs => readDigits radix range false 0 cs

/-- Reads a decimal numeral. -/
def parseInt (range : IntRange) (s : String) : Except NumeralError Int :=
  readInt 10 range s.toList

theorem readDigits_bounds {radix : Nat} {range : IntRange} {negative : Bool} {acc n : Int}
    {cs : List Char} (hlo : range.lo ≤ acc) (hhi : acc ≤ range.hi) (hl0 : range.lo ≤ 0)
    (hh0 : 0 ≤ range.hi) (hneg : negative = true → acc ≤ 0) (hpos : negative = false → 0 ≤ acc)
    (h : readDigits radix range negative acc cs = .ok n) : range.lo ≤ n ∧ n ≤ range.hi := by
  induction cs generalizing acc with
  | nil =>
    simp only [readDigits, Except.ok.injEq] at h
    omega
  | cons c cs ih =>
    simp only [readDigits] at h
    split at h
    · simp at h
    · rename_i d _
      cases negative with
      | true =>
        simp only [if_true] at h
        split at h
        · simp at h
        · have hacc : acc * radix ≤ 0 :=
            Int.mul_nonpos_of_nonpos_of_nonneg (hneg rfl) (Int.natCast_nonneg _)
          exact ih (by omega) (by omega) (by intro; omega) (by simp) h
      | false =>
        simp only [Bool.false_eq_true, if_false] at h
        split at h
        · simp at h
        · have hacc : 0 ≤ acc * radix := Int.mul_nonneg (hpos rfl) (Int.natCast_nonneg _)
          exact ih (by omega) (by omega) (by simp) (by intro; omega) h

/-- A number that is read lies in the range. -/
theorem readInt_bounds {radix : Nat} {range : IntRange} {n : Int} {cs : List Char}
    (hlo : range.lo ≤ 0) (hhi : 0 ≤ range.hi) (h : readInt radix range cs = .ok n) :
    range.lo ≤ n ∧ n ≤ range.hi := by
  unfold readInt at h
  split at h
  · simp at h
  · simp at h
  · simp at h
  · exact readDigits_bounds hlo hhi hlo hhi (by simp) (by simp) h
  · split at h
    · exact readDigits_bounds hlo hhi hlo hhi (by simp) (by simp) h
    · simp at h
  · exact readDigits_bounds hlo hhi hlo hhi (by simp) (by simp) h

end ScrapeDiscovery.Text

import ScrapeDiscovery.Text.Quoted

/-!
# Spans of time

A `Duration` counts seconds in 64 bits and nanoseconds below one second. Units
run from the nanosecond to the year; a month is 30.44 days and a year 365.25
days, so every unit from the second on is a whole number of seconds.
-/

namespace ScrapeDiscovery

/-- A span of time: whole seconds, which are counted in 64 bits, and the nanoseconds of the
started one. -/
structure Duration where
  secs : Nat
  nanos : Nat
  secs_lt : secs < 18446744073709551616 := by decide
  nanos_lt : nanos < 1000000000 := by decide
  deriving DecidableEq, Repr

namespace Duration

/-- No time at all. -/
def zero : Duration := ⟨0, 0, by decide, by decide⟩

instance : Inhabited Duration := ⟨zero⟩

/-- Whether no time passes. -/
def isZero (d : Duration) : Bool := d.secs == 0 && d.nanos == 0

/-- The span in nanoseconds. -/
def total (d : Duration) : Nat := d.secs * 1000000000 + d.nanos

/-- Five minutes. -/
def fiveMinutes : Duration := ⟨300, 0, by decide, by decide⟩

/-- A duration is determined by its nanoseconds. -/
theorem eq_of_total_eq {a b : Duration} (h : a.total = b.total) : a = b := by
  have ha := a.nanos_lt
  have hb := b.nanos_lt
  simp only [total] at h
  have hs : a.secs = b.secs := by omega
  have hn : a.nanos = b.nanos := by omega
  cases a
  cases b
  simp_all

/-! ## Units -/

/-- A unit of time. -/
inductive TimeUnit where
  | nanosecond | microsecond | millisecond | second | minute | hour | day | week | month | year
  deriving DecidableEq, Repr

/-- An amount of time as a multiple of a nanosecond or of a second. -/
inductive Amount where
  | nanos (n : Nat)
  | secs (n : Nat)
  deriving DecidableEq, Repr

/-- One unit, in seconds where it has whole ones. -/
def TimeUnit.amount : TimeUnit → Amount
  | .nanosecond => .nanos 1
  | .microsecond => .nanos 1000
  | .millisecond => .nanos 1000000
  | .second => .secs 1
  | .minute => .secs 60
  | .hour => .secs 3600
  | .day => .secs 86400
  | .week => .secs 604800
  | .month => .secs 2630016
  | .year => .secs 31557600

/-- One unit as the measure of its fractions: nanoseconds up to the minute, seconds from
the hour on. A nanosecond has no fractions. -/
def TimeUnit.fractionAmount : TimeUnit → Option Amount
  | .nanosecond => none
  | .microsecond => some (.nanos 1000)
  | .millisecond => some (.nanos 1000000)
  | .second => some (.nanos 1000000000)
  | .minute => some (.nanos 60000000000)
  | .hour => some (.secs 3600)
  | .day => some (.secs 86400)
  | .week => some (.secs 604800)
  | .month => some (.secs 2630016)
  | .year => some (.secs 31557600)

/-- The unit of a name. -/
def TimeUnit.ofName? : String → Option TimeUnit
  | "nanos" | "nsec" | "ns" => some .nanosecond
  | "usec" | "us" | "µs" => some .microsecond
  | "millis" | "msec" | "ms" => some .millisecond
  | "seconds" | "second" | "secs" | "sec" | "s" => some .second
  | "minutes" | "minute" | "mins" | "min" | "m" => some .minute
  | "hours" | "hour" | "hrs" | "hr" | "h" => some .hour
  | "days" | "day" | "d" => some .day
  | "weeks" | "week" | "wks" | "wk" | "w" => some .week
  | "months" | "month" | "M" => some .month
  | "years" | "year" | "yrs" | "yr" | "y" => some .year
  | _ => none

/-! ## Faults of a written duration -/

/-- Why a text is not a duration. Positions count bytes from the start of the text. -/
inductive Fault where
  /-- The text holds nothing but blanks. -/
  | empty
  /-- The character at `position` has no place in a duration. -/
  | invalidCharacter (position : Nat)
  /-- A number should begin at `position`. -/
  | numberExpected (position : Nat)
  /-- The number `value` has no unit. -/
  | unitNeeded (value : Nat)
  /-- No unit has this name. -/
  | unknownUnit (name : String)
  /-- A number does not fit, or is finer than a nanosecond. -/
  | notRepresentable
  deriving DecidableEq, Repr

/-- The wording of a fault. -/
def Fault.message : Fault → String
  | .empty => "value was empty"
  | .invalidCharacter position => "invalid character at " ++ toString position
  | .numberExpected position => "expected number at " ++ toString position
  | .unitNeeded value =>
    "time unit needed, for example " ++ toString value ++ "sec or " ++ toString value ++ "ms"
  | .unknownUnit name =>
    "unknown time unit " ++ Text.quoted name ++
      ", supported units: ns, us/µs, ms, sec, min, hours, days, weeks, months, years" ++
      " (and few variations)"
  | .notRepresentable =>
    "number is too large or cannot be represented without a lack of precision" ++
      " (values below 1ns are not supported)"

/-- The least number that 64 bits do not hold, `2 ^ 64`. -/
def wordLimit : Nat := 18446744073709551616

/-- `n` if it fits into 64 bits. -/
def fit (n : Nat) : Except Fault Nat :=
  if n < wordLimit then .ok n else .error .notRepresentable

/-- Adds an amount, if the nanoseconds and the seconds fit into 64 bits each. -/
def plus (d : Duration) : Amount → Except Fault Duration
  | .secs s =>
    if h : d.secs + s < 18446744073709551616 then .ok ⟨d.secs + s, d.nanos, h, d.nanos_lt⟩
    else .error .notRepresentable
  | .nanos n =>
    if d.nanos + n < wordLimit then
      if h : d.secs + (d.nanos + n) / 1000000000 < 18446744073709551616 then
        .ok ⟨_, _, h, Nat.mod_lt (d.nanos + n) (by decide)⟩
      else .error .notRepresentable
    else .error .notRepresentable

end Duration

end ScrapeDiscovery

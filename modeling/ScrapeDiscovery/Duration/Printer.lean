import ScrapeDiscovery.Duration.Basic

/-!
# Writing durations

A duration is written as its years, months, days, hours, minutes, seconds,
milliseconds, microseconds and nanoseconds, each taken from what the larger
units leave, those that are zero left out and the rest separated by a space.
Years, months and days have a plural. The empty duration is `0s`.
-/

namespace ScrapeDiscovery.Duration

/-- A count with its unit. -/
structure Term where
  count : Nat
  unit : TimeUnit
  deriving DecidableEq, Repr

/-- The units that a written duration has, largest first, each with the part of `d` that
the larger ones leave. -/
def terms (d : Duration) : List Term :=
  let inYear := d.secs % 31557600
  let inMonth := inYear % 2630016
  let inDay := inMonth % 86400
  [⟨d.secs / 31557600, .year⟩, ⟨inYear / 2630016, .month⟩, ⟨inMonth / 86400, .day⟩,
    ⟨inDay / 3600, .hour⟩, ⟨inDay % 3600 / 60, .minute⟩, ⟨inDay % 60, .second⟩,
    ⟨d.nanos / 1000000, .millisecond⟩, ⟨d.nanos / 1000 % 1000, .microsecond⟩,
    ⟨d.nanos % 1000, .nanosecond⟩]

/-- The name of a unit after a count. -/
def TimeUnit.written (count : Nat) : TimeUnit → String
  | .nanosecond => "ns"
  | .microsecond => "us"
  | .millisecond => "ms"
  | .second => "s"
  | .minute => "m"
  | .hour => "h"
  | .day => if count = 1 then "day" else "days"
  | .week => if count = 1 then "week" else "weeks"
  | .month => if count = 1 then "month" else "months"
  | .year => if count = 1 then "year" else "years"

/-- A count followed by its unit. -/
def Term.render (t : Term) : String := toString t.count ++ t.unit.written t.count

/-- The written form of a duration. -/
def render (d : Duration) : String :=
  if d.isZero then "0s"
  else " ".intercalate ((d.terms.filter (·.count ≠ 0)).map Term.render)

end ScrapeDiscovery.Duration

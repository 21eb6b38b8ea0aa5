/-!
# Membership in a table of code point ranges

Tables of characters are arrays of ranges in ascending order, searched by
halving.
-/

namespace ScrapeDiscovery.Text

/-- Searches `table` between the positions `lo` and `hi` for a range that holds `n`,
halving the distance at most `fuel` times. -/
def inRangesBetween (table : Array (Nat × Nat)) (n : Nat) : (fuel lo hi : Nat) → Bool
  | 0, _, _ => false
  | fuel + 1, lo, hi =>
    if lo < hi then
      let mid := (lo + hi) / 2
      match table[mid]? with
      | none => false
      | some (first, last) =>
        if n < first then inRangesBetween table n fuel lo mid
        else if last < n then inRangesBetween table n fuel (mid + 1) hi
        else true
    else false

/-- Whether `n` lies in one of the ranges of an ascending table. -/
def inRanges (table : Array (Nat × Nat)) (n : Nat) : Bool :=
  inRangesBetween table n table.size 0 table.size

end ScrapeDiscovery.Text

import ScrapeDiscovery.LogEvent
import ScrapeDiscovery.Text.Search

/-!
# Which log events are shown

A filter is a list of directives with commas between them: a level for all
sources of events, or a source with the level for it and for all sources whose
names go on from its name. A source without a level shows everything. Of several
directives for a source the one with the longest name counts, and of those with
one name the last.
-/

namespace ScrapeDiscovery

/-- How much is shown: everything up to an urgency, or nothing. -/
abbrev Verbosity := Option LogEvent.Level

/-- The rank of an urgency; the most urgent has the lowest. -/
def LogEvent.Level.rank : LogEvent.Level → Nat
  | .error => 1
  | .warn => 2
  | .info => 3
  | .debug => 4
  | .trace => 5

/-- The name of an urgency. -/
def LogEvent.Level.name : LogEvent.Level → String
  | .error => "ERROR"
  | .warn => "WARN"
  | .info => "INFO"
  | .debug => "DEBUG"
  | .trace => "TRACE"

/-- What one directive sets. -/
structure LogDirective where
  /-- What the name of a source begins with. -/
  source : Option (List Char)
  shown : Verbosity
  deriving DecidableEq, Repr

/-- The directives of a filter. -/
abbrev LogFilter := List LogDirective

namespace LogFilter

/-- The verbosity of a name or a digit. -/
def verbosity? (cs : List Char) : Option Verbosity :=
  match String.ofList (cs.map Char.toLower) with
  | "off" | "0" => some none
  | "error" | "1" => some (some .error)
  | "warn" | "2" => some (some .warn)
  | "info" | "3" => some (some .info)
  | "debug" | "4" => some (some .debug)
  | "trace" | "5" => some (some .trace)
  | _ => none

/-- Whether `c` may stand in the name of a source. -/
def isSourceChar (c : Char) : Bool :=
  c.isAlphanum || c == '_' || c == ':' || c == '-' || '\x7f' < c

/-- Reads a directive. -/
def readDirective? (cs : List Char) : Option LogDirective :=
  match verbosity? cs with
  | some v => some ⟨none, v⟩
  | none =>
    let name := cs.takeWhile isSourceChar
    let source := if (verbosity? name).isSome then none else some name
    match name, cs.dropWhile isSourceChar with
    | [], _ => none
    | _, [] => some ⟨source, some .trace⟩
    | _, ['='] => some ⟨source, some .trace⟩
    | _, '=' :: level => (verbosity? level).map fun v => ⟨source, v⟩
    | _, _ => none

/-- Reads a filter. -/
def parse? (s : String) : Option LogFilter :=
  ((Text.splitOnChar (· == ',') s.toList).filter (!·.isEmpty)).mapM readDirective?

/-- How specific a directive is. -/
def specificity (d : LogDirective) : Nat :=
  match d.source with
  | none => 0
  | some name => name.length + 1

/-- Whether a directive is about a source. -/
def concerns (source : List Char) (d : LogDirective) : Bool :=
  match d.source with
  | none => true
  | some name => name.isPrefixOf source

/-- The directive that counts for a source. -/
def decisive? (f : LogFilter) (source : List Char) : Option LogDirective :=
  (f.filter (concerns source)).foldl
    (fun best d =>
      match best with
      | some b => if specificity b ≤ specificity d then some d else some b
      | none => some d)
    none

/-- Whether an event of a source is shown. -/
def shows (f : LogFilter) (source : String) (level : LogEvent.Level) : Bool :=
  match (f.decisive? source.toList).bind (·.shown) with
  | some most => level.rank ≤ most.rank
  | none => false

/-- What is shown if nothing is asked for. -/
def standard : LogFilter := [⟨none, some .info⟩]

/-- The filter that is asked for, or the standard one if what is asked for is no filter. -/
def asked (wish : Option String) : LogFilter := (wish.bind parse?).getD standard

end LogFilter

end ScrapeDiscovery

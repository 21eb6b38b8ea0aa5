import ScrapeDiscovery.Agent.Basic

/-!
# Measures

What an agent makes known about itself in the text format of prometheus: for each
measure a line of help, a line with its type, and a line for each of its values.
-/

namespace ScrapeDiscovery

/-- The types of measures. -/
inductive MeasureType where
  | counter
  | gauge
  deriving DecidableEq, Repr

/-- The name of a type. -/
def MeasureType.name : MeasureType → String
  | .counter => "counter"
  | .gauge => "gauge"

/-- A measure with its values, each with the label that tells it from others. -/
structure Measure where
  name : String
  help : String
  type : MeasureType
  values : List (Option (String × String) × Nat)
  deriving DecidableEq, Repr

namespace Measure

/-- A character in the value of a label. -/
def escapeLabelChar : Char → List Char
  | '\\' => ['\\', '\\']
  | '"' => ['\\', '"']
  | '\n' => ['\\', 'n']
  | c => [c]

/-- The line of a value. -/
def valueLine (name : String) : Option (String × String) × Nat → String
  | (none, n) => name ++ " " ++ toString n
  | (some (label, value), n) =>
    name ++ "\x7b" ++ label ++ "=\"" ++ String.ofList (value.toList.flatMap escapeLabelChar) ++
      "\"\x7d " ++ toString n

/-- The lines of a measure; one without values has none. -/
def lines (m : Measure) : List String :=
  if m.values.isEmpty then []
  else
    ["# HELP " ++ m.name ++ " " ++ m.help, "# TYPE " ++ m.name ++ " " ++ m.type.name] ++
      m.values.map (valueLine m.name)

/-- A measure with a single value. -/
def single (name help : String) (type : MeasureType) (value : Nat) : Measure :=
  ⟨name, help, type, [(none, value)]⟩

end Measure

namespace Agent

/-- The measures of an agent, by name (`DiscoveryMetrics`). -/
def measures (a : Agent) : List Measure :=
  [.single "discovery_config_reloads_total"
      "Total number of applied discovery configuration changes" .counter a.reloads,
    .single "discovery_enabled" "Whether discovery is running on this agent" .gauge
      a.enabled.toNat,
    .single "discovery_encoding_errors_total"
      "Total number of resources that could not be encoded" .counter
      a.discoverer.roster.mishaps.encoding,
    .single "discovery_leader_election_errors_total" "Total number of leader election failures"
      .counter a.leadership.electionErrors,
    .single "discovery_leader_election_leading" "Whether this agent is the elected leader" .gauge
      a.leadership.gauge.toNat,
    .single "discovery_provider_build_errors_total"
      "Total number of failures building metric source providers" .counter
      a.discoverer.roster.mishaps.build,
    .single "discovery_rules_count" "Number of installed discovery rules" .gauge
      a.discoverer.ruleGauge,
    ⟨"discovery_targets_registered", "Number of discovered targets per plugin family", .gauge,
      a.registered.toList.map fun e => (some ("type", e.1), e.2)⟩]

/-- The measures of an agent as text (`metrics`). -/
def measuresText (a : Agent) : String :=
  String.join ((a.measures.flatMap Measure.lines).map (· ++ "\n"))

end Agent

end ScrapeDiscovery

import ScrapeDiscovery.Json.Basic

/-!
# Structured log events

What the agent reports about itself, as data: a name and fields. The fields are
the same ones in every event of a name, except that a reconciliation mentions
failures only when there are some.
-/

namespace ScrapeDiscovery

/-- What happened to a target. -/
inductive TargetChange where
  | added
  | updated
  | deleted
  deriving DecidableEq, Repr

/-- The name of a change. -/
def TargetChange.name : TargetChange → String
  | .added => "added"
  | .updated => "updated"
  | .deleted => "deleted"

/-- An event (`StructuredLogger`). -/
inductive LogEvent where
  | targetChanged (change : TargetChange) (target factory : String)
  | rulesReconciled (installed removed failed : Nat)
  | leadershipChanged (leading : Bool) (leader : String)
  | agentStarted (version : String) (daemon : Bool)
  | agentShutdown (reason : String)
  deriving DecidableEq, Repr

namespace LogEvent

/-- The name of an event. -/
def name : LogEvent → String
  | targetChanged .. => "target_changed"
  | rulesReconciled .. => "rules_reconciled"
  | leadershipChanged .. => "leadership_changed"
  | agentStarted .. => "agent_started"
  | agentShutdown .. => "agent_shutdown"

/-- How urgent an event is. -/
inductive Level where
  | trace
  | debug
  | info
  | warn
  | error
  deriving DecidableEq, Repr

/-- The urgency of an event: only failures are worth a warning. -/
def level : LogEvent → Level
  | rulesReconciled _ _ failed => if failed > 0 then .warn else .info
  | _ => .info

/-- The text of an event. -/
def message : LogEvent → String
  | targetChanged .. => "Discovered target changed"
  | rulesReconciled _ _ failed =>
    if failed > 0 then "Reconciled discovery rules with errors" else "Reconciled discovery rules"
  | leadershipChanged .. => "Leadership changed"
  | agentStarted .. => "Discovery agent started"
  | agentShutdown .. => "Discovery agent shutting down"

/-- The fields of an event besides its name and its node. -/
def fields : LogEvent → List (String × Json)
  | targetChanged change target factory =>
    [("action", .text change.name), ("target", .text target), ("plugin_type", .text factory)]
  | rulesReconciled installed removed failed =>
    [("installed", .nat installed), ("removed", .nat removed)] ++
      if failed > 0 then [("failed", .nat failed)] else []
  | leadershipChanged leading leader => [("leading", .bool leading), ("leader", .text leader)]
  | agentStarted version daemon => [("agent_version", .text version), ("daemon", .bool daemon)]
  | agentShutdown reason => [("reason", .text reason)]

/-- An event as JSON, reported by `node`. -/
def toJson (node : String) (e : LogEvent) : Json :=
  .object ([("event", .text e.name), ("node", .text node)] ++ e.fields)

end LogEvent

end ScrapeDiscovery

import ScrapeDiscovery.Json.Number

/-!
# What an agent is seen to answer

Targets, rules, the status and the health of an agent as they are read from its
answers. A record is read from an object that names every field at most once,
fields that are not known aside, or from a list with an item for every field.
The configuration of a target is kept as it is, with its members in order.
-/

namespace ScrapeDiscovery.Client

/-! ## Records -/

/-- How deep lists and objects may be nested in an answer. -/
def depthLimit : Nat := 127

/-- The values of the members called `name`. -/
def membersNamed (name : String) (ms : List (String × Json)) : List Json :=
  (ms.filter fun m => m.1 = name).map (·.2)

/-- The value of a field that is named at most once. -/
def uniqueMember? (ms : List (String × Json)) (name : String) : Option (Option Json) :=
  match membersNamed name ms with
  | [] => some none
  | [v] => some (some v)
  | _ => none

/-- The values of the fields of a record. -/
def fields? (names : List String) : Json → Option (List (Option Json))
  | .object ms => names.mapM (uniqueMember? ms)
  | .list xs => if xs.length = names.length then some (xs.map some) else none
  | _ => none

/-- A natural number of 64 bits. -/
def count? (j : Json) : Option Nat := (j.int? .nat64).map Int.toNat

/-- A text that may be null. -/
def optionalText? : Json → Option (Option String)
  | .null => some none
  | .text s => some (some s)
  | _ => none

/-- The values of an object, each of them read; of a repeated name the last one. -/
def map? {α : Type} (read : Json → Option α) : Json → Option (KeyMap α)
  | .object ms => (ms.mapM fun m => (read m.2).map (m.1, ·)).map KeyMap.ofList
  | _ => none

/-- The items of a list, each of them read. -/
def items? {α : Type} (read : Json → Option α) : Json → Option (List α)
  | .list xs => xs.mapM read
  | _ => none

/-! ## Targets -/

/-- A target (`TargetSummary`). -/
structure TargetView where
  name : String
  rule : String
  pluginType : String
  config : Json
  deriving Repr

namespace TargetView

/-- A configuration as it is kept: two levels below the top of an answer. -/
def config? (j : Json) : Option Json :=
  if j.depth + 2 ≤ depthLimit then (j.settleNumbers?).map Json.canonical else none

/-- Reads a target. -/
def ofJson? (j : Json) : Option TargetView :=
  match fields? ["name", "rule", "plugin_type", "config"] j with
  | some [some (.text name), some (.text rule), some (.text pluginType), some config] =>
    (config? config).map fun config => { name, rule, pluginType, config }
  | _ => none

/-- The target as JSON. -/
def toJson (t : TargetView) : Json :=
  .object [("name", .text t.name), ("rule", .text t.rule), ("plugin_type", .text t.pluginType),
    ("config", t.config)]

/-- A text of the configuration. -/
def configText? (t : TargetView) (name : String) : Option String :=
  (t.config.get? name).bind Json.text?

/-- The namespace among the tags (`TargetSummary::namespace`). -/
def namespaceTag (t : TargetView) : String :=
  (((t.config.get? "tags").bind (·.get? "namespace")).bind Json.text?).getD ""

/-- How the target was found (`TargetSummary::discovered`). -/
def discovered (t : TargetView) : String := (t.configText? "discovered").getD ""

/-- Where the target is scraped, or by which plugins (`TargetSummary::endpoint`). -/
def endpoint (t : TargetView) : String :=
  match t.configText? "url" with
  | some url => url
  | none =>
    let plugins := ((t.config.get? "plugins").bind Json.list?).getD []
    ",".intercalate (plugins.filterMap Json.text?)

end TargetView

/-! ## Rules -/

/-- A rule (`RuleSummary`). -/
structure RuleView where
  name : String
  pluginType : String
  resourceType : String
  targets : Nat
  deriving DecidableEq, Repr

namespace RuleView

/-- Reads a rule. -/
def ofJson? (j : Json) : Option RuleView :=
  match fields? ["name", "plugin_type", "resource_type", "targets"] j with
  | some [some (.text name), some (.text pluginType), some (.text resourceType), some targets] =>
    (count? targets).map fun targets => { name, pluginType, resourceType, targets }
  | _ => none

/-- The rule as JSON. -/
def toJson (r : RuleView) : Json :=
  .object [("name", .text r.name), ("plugin_type", .text r.pluginType),
    ("resource_type", .text r.resourceType), ("targets", .nat r.targets)]

end RuleView

/-! ## The status -/

/-- The status of an agent (`AgentStatus`). -/
structure StatusView where
  nodeName : String
  daemon : Bool
  leading : Bool
  leader : String
  rules : Nat
  targets : Nat
  runtimeSources : Nat
  registries : KeyMap Nat
  deriving DecidableEq, Repr

namespace StatusView

/-- Reads a status. -/
def ofJson? (j : Json) : Option StatusView :=
  match fields? ["node_name", "daemon", "leading", "leader", "rules", "targets", "runtime_sources",
    "registries"] j with
  | some [some (.text nodeName), some (.bool daemon), some (.bool leading), some (.text leader),
      some rules, some targets, some runtimeSources, some registries] => do
    let rules ← count? rules
    let targets ← count? targets
    let runtimeSources ← count? runtimeSources
    let registries ← map? count? registries
    return { nodeName, daemon, leading, leader, rules, targets, runtimeSources, registries }
  | _ => none

/-- The status as JSON. -/
def toJson (s : StatusView) : Json :=
  .object [("node_name", .text s.nodeName), ("daemon", .bool s.daemon),
    ("leading", .bool s.leading), ("leader", .text s.leader), ("rules", .nat s.rules),
    ("targets", .nat s.targets),
    ("runtime_sources", .nat s.runtimeSources), ("registries", .ofMap (s.registries.map Json.nat))]

end StatusView

/-! ## Health -/

/-- What a part of an agent reports (`ComponentHealth`). -/
structure ComponentView where
  status : String
  message : Option String
  /-- When it was reported, in seconds. -/
  checkedAt : Int
  deriving DecidableEq, Repr

/-- The health of an agent (`HealthReport`). -/
structure HealthView where
  status : String
  components : KeyMap ComponentView
  deriving DecidableEq, Repr

/-- Reads what a part reports; the message may be missing. -/
def ComponentView.ofJson? (j : Json) : Option ComponentView :=
  match fields? ["status", "message", "last_check_timestamp"] j with
  | some [some (.text status), message, some checkedAt] => do
    let message ← optionalText? (message.getD .null)
    let checkedAt ← checkedAt.int? .int64
    return { status, message, checkedAt }
  | _ => none

/-- The report of a part as JSON. -/
def ComponentView.toJson (c : ComponentView) : Json :=
  .object ([("status", .text c.status)] ++
    (match c.message with
      | some m => [("message", .text m)]
      | none => []) ++
    [("last_check_timestamp", .int c.checkedAt)])

/-- Reads the health of an agent. -/
def HealthView.ofJson? (j : Json) : Option HealthView :=
  match fields? ["status", "components"] j with
  | some [some (.text status), some components] =>
    (map? ComponentView.ofJson? components).map fun components => { status, components }
  | _ => none

/-- The health as JSON. -/
def HealthView.toJson (h : HealthView) : Json :=
  .object [("status", .text h.status),
    ("components", .ofMap (h.components.map ComponentView.toJson))]

end ScrapeDiscovery.Client

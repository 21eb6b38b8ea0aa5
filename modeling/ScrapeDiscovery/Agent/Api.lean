import ScrapeDiscovery.Agent.Measures
import ScrapeDiscovery.Text.UrlEncoded

/-!
# The interface of an agent

What an agent answers to requests: whether it is alive and ready, its measures,
its rules and targets, and its status. Requests for targets may ask for one
plugin type and for one namespace.
-/

namespace ScrapeDiscovery

/-! ## Views as JSON -/

/-- A rule as JSON. -/
def RuleSummary.toJson (r : RuleSummary) : Json :=
  .object [("name", .text r.name), ("plugin_type", .text r.pluginType),
    ("resource_type", .text r.kind.name), ("targets", .nat r.targets)]

/-- A target as JSON. -/
def TargetSummary.toJson (t : TargetSummary) : Json :=
  .object [("name", .text t.name), ("rule", .text t.rule), ("plugin_type", .text t.pluginType),
    ("config", t.config.toJson)]

/-- What a discoverer holds as JSON. -/
def Discoverer.toJson (d : Discoverer) : Json :=
  .object [("rules", .list (d.rules.map RuleSummary.toJson)), ("count", .nat d.count),
    ("targets", .list (d.targets.map fun t =>
      .list [.text t.name, .text t.rule, .text t.pluginType])),
    ("registries", .ofMap (d.roster.registries.map fun owners => .texts owners.keys)),
    ("live", .texts d.roster.catalog.keys), ("rules_gauge", .nat d.ruleGauge)]

namespace Agent

/-- The status of an agent as JSON (`status`). -/
def status (a : Agent) : Json :=
  .object [("node_name", .text a.nodeName), ("daemon", .bool a.leadership.daemon),
    ("leading", .bool a.leadership.leading), ("leader", .text a.leadership.leader),
    ("rules", .nat a.discoverer.count), ("targets", .nat a.discoverer.targets.length),
    ("runtime_sources", .nat a.live.sources.length),
    ("registries", .ofMap (a.registryCounts.map Json.nat))]

end Agent

/-! ## Queries -/

/-- Which targets are asked for (`TargetQuery`). -/
structure TargetQuery where
  pluginType : Option String := none
  ns : Option String := none
  deriving DecidableEq, Repr

namespace TargetQuery

/-- The name of the part of a query that asks for a plugin type. -/
def typeField : String := "type"

/-- The name of the part of a query that asks for a namespace. -/
def namespaceField : String := "namespace"

/-- Takes up a part of a query. A part given twice is refused with its name; parts that are not
known are not looked at. -/
def add (q : TargetQuery) (name value : String) : Except String TargetQuery :=
  if name = typeField then
    if q.pluginType.isSome then .error name else .ok { q with pluginType := some value }
  else if name = namespaceField then
    if q.ns.isSome then .error name else .ok { q with ns := some value }
  else .ok q

/-- Reads a query (`TargetQuery`). -/
def parse (query : String) : Except String TargetQuery :=
  (Text.decodeQuery query).foldlM (fun q (e : String × String) => q.add e.1 e.2) {}

/-- Whether a target is asked for (`targets`). -/
def accepts (q : TargetQuery) (t : TargetSummary) : Bool :=
  q.pluginType.all (· == t.pluginType) &&
    q.ns.all fun ns => t.config.tags.get? "namespace" == some ns

end TargetQuery

/-! ## Requests and answers -/

/-- What an agent can be asked for (`create_router`). -/
inductive Endpoint where
  | alive
  | ready
  | measures
  | targets
  | rules
  | status
  deriving DecidableEq, Repr

/-- The endpoint at a path (`create_router`). -/
def Endpoint.ofPath? : String → Option Endpoint
  | "/healthz" => some .alive
  | "/readyz" => some .ready
  | "/metrics" => some .measures
  | "/api/v1/targets" => some .targets
  | "/api/v1/rules" => some .rules
  | "/api/v1/status" => some .status
  | _ => none

/-- The content of an answer. -/
inductive Content where
  | nothing
  | text (s : String)
  | json (j : Json)
  deriving Repr

/-- An answer. -/
structure Response where
  code : Nat
  content : Content
  /-- Whether the content is sent, and not only described. -/
  isSent : Bool := true
  deriving Repr

namespace Response

/-- The type of the content, where there is any. -/
def contentType (r : Response) : Option String :=
  match r.content with
  | .nothing => none
  | .text _ => some "text/plain; charset=utf-8"
  | .json _ => some "application/json"

end Response

/-- The path and the query of what a request is for; a fragment is not looked at. -/
def splitTarget (target : String) : String × String :=
  let cs := target.toList.takeWhile (· ≠ '#')
  (String.ofList (cs.takeWhile (· ≠ '?')), String.ofList ((cs.dropWhile (· ≠ '?')).drop 1))

namespace Agent

/-- The wording for a part of a query that is given twice. -/
def duplicateField (name : String) : String := "duplicate field \x60" ++ name ++ "\x60"

/-- The answer to a query for targets (`targets`). -/
def targetsResponse (a : Agent) (query : String) : Response :=
  match TargetQuery.parse query with
  | .ok q =>
    { code := 200
      content := .json (.list ((a.discoverer.targets.filter q.accepts).map TargetSummary.toJson)) }
  | .error field =>
    { code := 400
      content := .text ("Failed to deserialize query string: " ++ duplicateField field) }

/-- Takes down how leadership is (`healthz`). -/
def checkLeadership (a : Agent) (now : Int) : Agent :=
  { a with health :=
      a.health.update HealthBoard.leadershipComponent (.ofLeadership a.leadership now) }

/-- The answer at an endpoint (`create_router`). -/
def answer (a : Agent) (e : Endpoint) (query : String) : Response :=
  match e with
  | .alive =>
    { code := if a.health.status = .unhealthy then 503 else 200
      content := .json a.health.toJson }
  | .ready =>
    { code := if a.health.readiness = .ready then 200 else 503
      content := .json a.health.readiness.toJson }
  | .measures => { code := 200, content := .text a.measuresText }
  | .targets => a.targetsResponse query
  | .rules =>
    { code := 200, content := .json (.list (a.discoverer.rules.map RuleSummary.toJson)) }
  | .status => { code := 200, content := .json a.status }

/-- Answers a request (`create_router`). Everything is only there to be read; whether the agent is
alive is looked up anew. -/
def respond (a : Agent) (now : Int) (method target : String) : Response × Agent :=
  let (path, query) := splitTarget target
  match Endpoint.ofPath? path with
  | none => ({ code := 404, content := .nothing }, a)
  | some e =>
    if method = "GET" || method = "HEAD" then
      let a := if e = .alive then a.checkLeadership now else a
      ({ a.answer e query with isSent := method = "GET" }, a)
    else ({ code := 405, content := .nothing }, a)

end Agent

end ScrapeDiscovery

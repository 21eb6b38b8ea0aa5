import ScrapeDiscovery.Discoverer.Routing

/-!
# Installing and removing rules

A rule that replaces one of its name and type takes over the handler with all
its targets. One of another type starts with none, and what the old one held is
given up. A rule that is refused changes nothing.

Rules for the API server hold their target as soon as they are installed, since
nothing ever reports the API server as a resource; only the leading agent holds
it.

Results:
* `handleAll_ruleGauge`: the number of rules made known is the number installed.
* `delete_pipelines`: the pipelines that are left after a deletion.
-/

namespace ScrapeDiscovery

namespace Discoverer

/-- What the port of an API server rule is by default (`API_SERVER_PORT`). -/
def apiServerPort : String := "443"

/-- What the scheme of an API server rule is by default (`API_SERVER_SCHEME`). -/
def apiServerScheme : String := "https"

/-- A rule as it applies to the API server (`Discoverer::discover_api_server`). -/
def forApiServer (rule : Rule) : Rule :=
  { rule with
    port := if rule.port = "" then apiServerPort else rule.port
    scheme := if rule.scheme = "" then apiServerScheme else rule.scheme }

/-- What the API server asks of the handler of a pipeline (`Discoverer::discover_api_server`):
nothing if the rule is for other resources. -/
def apiServerCalls (p : Pipeline) : List HandlerCall :=
  if p.filter.kind = .apiServer then [.handle p.handler .apiServer (forApiServer p.rule)] else []

/-- Performs the calls for the API server, if the agent leads
(`Discoverer::discover_api_server`). -/
def performLeading (d : Discoverer) (leading : Bool) (calls : List HandlerCall) : Discoverer :=
  if leading then d.performAll calls else d

/-- Makes the number of rules known (`Discoverer::handle`). -/
def publishCount (d : Discoverer) : Discoverer := { d with ruleGauge := d.count }

/-- Removes a rule and closes its handler (`Discoverer::teardown`). -/
def teardown (d : Discoverer) (name : String) : Discoverer :=
  match d.pipelines.get? name with
  | none => d
  | some p => { d with pipelines := d.pipelines.erase name, roster := d.roster.close p.handler }

/-- A handler for the targets of a rule (`Discoverer::make_handler`). -/
def makeHandler (d : Discoverer) (pluginType : String) : Except DiscoveryError TargetHandler := do
  let factory ← Family.ofPluginType pluginType
  let encoder ← d.encoders.resolve pluginType
  return { registry := registryName pluginType, factory, encoder }

/-- Installs a rule with a handler of its own, in place of one of its name
(`Discoverer::install`). -/
def recreate (d : Discoverer) (rule : Rule) (filter : ResourceFilter) (h : TargetHandler) :
    Pipeline × Discoverer :=
  let p : Pipeline := ⟨filter, rule, d.roster.nextId⟩
  let d := { d with roster := d.roster.add h }.teardown rule.name
  (p, { d with pipelines := d.pipelines.insert rule.name p })

/-- Installs a rule and answers its pipeline (`Discoverer::install`). -/
def install (d : Discoverer) (rule : Rule) : Except DiscoveryError (Pipeline × Discoverer) := do
  let filter ← ResourceFilter.compile rule
  match (d.pipelines.get? rule.name).filter (·.rule.pluginType = rule.pluginType) with
  | some old =>
    let p : Pipeline := ⟨filter, rule, old.handler⟩
    return (p, { d with pipelines := d.pipelines.insert rule.name p })
  | none =>
    let h ← d.makeHandler rule.pluginType
    return d.recreate rule filter h

/-- What came of installing rules one after the other. -/
structure Installation where
  discoverer : Discoverer
  /-- How many rules were installed. -/
  installed : Nat := 0
  /-- How many rules were refused. -/
  failed : Nat := 0
  /-- What the API server asks of the handlers then. -/
  calls : List HandlerCall := []

/-- Installs one more rule (`Discoverer::handle_all`). -/
def Installation.step (i : Installation) (rule : Rule) : Installation :=
  match i.discoverer.install rule with
  | .ok (p, d) =>
    { discoverer := d, installed := i.installed + 1, failed := i.failed
      calls := i.calls ++ apiServerCalls p }
  | .error _ => { i with failed := i.failed + 1 }

/-- The names of installed rules that are not among `rules` (`Discoverer::handle_all`). -/
def missing (d : Discoverer) (rules : List Rule) : List String :=
  d.pipelines.keys.filter fun name => !(rules.map (·.name)).contains name

/-- Makes exactly the rules of a list the installed ones (`Discoverer::handle_all`): those missing
from it are removed, then each is installed in turn. Answers how many were refused. -/
def handleAll (d : Discoverer) (leading : Bool) (rules : List Rule) : Nat × Discoverer :=
  let missing := d.missing rules
  let i := rules.foldl Installation.step { discoverer := missing.foldl teardown d }
  let d := i.discoverer.publishCount.performLeading leading i.calls
  (i.failed,
    { d with roster := d.roster.report (.rulesReconciled i.installed missing.length i.failed) })

/-- Installs a single rule (`Discoverer::handle`). -/
def handle (d : Discoverer) (leading : Bool) (rule : Rule) : Except DiscoveryError Discoverer := do
  let (p, d) ← d.install rule
  return d.publishCount.performLeading leading (apiServerCalls p)

/-- Removes a single rule (`Discoverer::delete`). -/
def delete (d : Discoverer) (name : String) : Discoverer := (d.teardown name).publishCount

/-- Removes every rule and gives up every target (`Discoverer::delete_all`). -/
def deleteAll (d : Discoverer) : Discoverer :=
  let d := (d.handleAll false []).2
  { d with roster := d.roster.dismiss d.annotated fun _ => true }

/-- Decides anew which resources may ask for themselves (`Discoverer::set_annotation_policy`). Where
none may any longer, all that did are given up. -/
def setAnnotationPolicy (d : Discoverer) (excludes : List Selectors) (disabled : Bool) :
    Discoverer :=
  let d := { d with policy := .compile excludes disabled }
  if disabled then { d with roster := d.roster.dismiss d.annotated fun _ => true } else d

/-- Runs the rules for the API server once more, for instance after leadership was gained
(`Discoverer::refresh_api_server`). -/
def refreshApiServer (d : Discoverer) (leading : Bool) : Discoverer :=
  d.performLeading leading (d.pipelines.values.flatMap apiServerCalls)

/-! ## Laws -/

theorem annotate_pipelines (d : Discoverer) (resource : Resource) :
    (d.annotate resource).pipelines = d.pipelines ∧
      (d.annotate resource).ruleGauge = d.ruleGauge := by
  unfold annotate
  split
  · exact ⟨rfl, rfl⟩
  · split <;> exact ⟨rfl, rfl⟩

theorem perform_pipelines (d : Discoverer) (c : HandlerCall) :
    (d.perform c).pipelines = d.pipelines ∧ (d.perform c).ruleGauge = d.ruleGauge := by
  cases c with
  | delete id target => exact ⟨rfl, rfl⟩
  | handle id resource rule => exact ⟨rfl, rfl⟩
  | annotate resource => exact annotate_pipelines d resource

theorem performAll_pipelines (d : Discoverer) (calls : List HandlerCall) :
    (d.performAll calls).pipelines = d.pipelines ∧
      (d.performAll calls).ruleGauge = d.ruleGauge := by
  induction calls generalizing d with
  | nil => exact ⟨rfl, rfl⟩
  | cons c cs ih =>
    have h := ih (d.perform c)
    have hc := d.perform_pipelines c
    exact ⟨h.1.trans hc.1, h.2.trans hc.2⟩

theorem performLeading_pipelines (d : Discoverer) (leading : Bool) (calls : List HandlerCall) :
    (d.performLeading leading calls).pipelines = d.pipelines ∧
      (d.performLeading leading calls).ruleGauge = d.ruleGauge := by
  cases leading
  · exact ⟨rfl, rfl⟩
  · exact performAll_pipelines d calls

/-- The number of rules made known is the number installed. -/
theorem handleAll_ruleGauge (d : Discoverer) (leading : Bool) (rules : List Rule) :
    (d.handleAll leading rules).2.ruleGauge = (d.handleAll leading rules).2.count := by
  simp only [handleAll, count]
  rw [(performLeading_pipelines _ _ _).1, (performLeading_pipelines _ _ _).2]
  rfl

theorem delete_pipelines (d : Discoverer) (name k : String) :
    (d.delete name).pipelines.get? k = if k = name then none else d.pipelines.get? k := by
  unfold delete teardown publishCount
  cases h : d.pipelines.get? name with
  | none =>
    by_cases hk : k = name
    · simp [hk, h]
    · simp [hk]
  | some p => simp [KeyMap.get?_erase]

end Discoverer

end ScrapeDiscovery

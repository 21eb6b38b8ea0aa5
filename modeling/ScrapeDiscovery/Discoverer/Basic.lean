import ScrapeDiscovery.Filter
import ScrapeDiscovery.Roster.Upkeep
import ScrapeDiscovery.Settings.Basic

/-!
# Rules at work

An installed rule is a pipeline: its compiled selectors, the rule itself and the
handler of its targets. Resources that no rule claims may ask for themselves by
their annotations, as far as the policy allows. A `Discoverer` holds the
pipelines under the names of their rules, the policy and the roster.

Results:
* `start_targets`: nothing is held at first.
-/

namespace ScrapeDiscovery

/-- An installed rule (`Pipeline`). -/
structure Pipeline where
  filter : ResourceFilter
  rule : Rule
  /-- The handler of the targets of the rule. -/
  handler : HandlerId
  deriving DecidableEq, Repr

/-- Which resources may ask for themselves (`AnnotationPolicy`). -/
structure AnnotationPolicy where
  /-- Whether no resource may. -/
  disabled : Bool := false
  /-- Resources that may not. -/
  excludes : List ResourceFilter := []
  deriving DecidableEq, Repr, Inhabited

namespace AnnotationPolicy

/-- The compiled selectors of the resource kinds that may not ask; faulty ones count for nothing
(`AnnotationPolicy::compile`). -/
def compile (excludes : List Selectors) (disabled : Bool) : AnnotationPolicy where
  disabled
  excludes := excludes.filterMap fun selectors =>
    (ResourceFilter.compile { name := "", pluginType := "prometheus", selectors }).toOption

/-- Whether a resource is one of those that may not ask (`AnnotationPolicy::excluded`). -/
def isExcluded (p : AnnotationPolicy) (r : Resource) : Bool := p.excludes.any (·.isMatch r)

/-- Whether a resource may ask for itself (`AnnotationPolicy::allows`). -/
def allows (p : AnnotationPolicy) (r : Resource) : Bool := !p.disabled && !p.isExcluded r

end AnnotationPolicy

/-- The rules at work and the targets that they hold (`Discoverer`). -/
structure Discoverer where
  /-- The installed rules under their names. -/
  pipelines : KeyMap Pipeline := ∅
  /-- The handler of the targets that ask for themselves. -/
  annotated : HandlerId := 0
  policy : AnnotationPolicy := {}
  encoders : EncoderTable
  roster : Roster := {}
  /-- The number of rules that was last made known. -/
  ruleGauge : Nat := 0
  deriving DecidableEq, Repr

/-- What is shown of an installed rule (`RuleSummary`). -/
structure RuleSummary where
  name : String
  pluginType : String
  kind : ResourceKind
  /-- How many targets it holds. -/
  targets : Nat
  deriving DecidableEq, Repr

/-- What is shown of a target (`TargetSummary`). -/
structure TargetSummary where
  name : String
  /-- The rule that holds it. -/
  rule : String
  pluginType : String
  config : ScrapeConfig
  deriving DecidableEq, Repr

namespace Discoverer

/-- The plugin type of the targets that ask for themselves. -/
def annotatedType : String := "prometheus"

/-- The name that stands for a rule where a target asked for itself (`ANNOTATION_PIPELINE`). -/
def annotatedRule : String := "annotation"

/-- No rules, under the settings of a document, on the node of the agent (`Discoverer::new`). -/
def start (settings : Settings) (nodeName : String) : Discoverer where
  policy := .compile settings.annotationExcludes settings.annotationsDisabled
  encoders := .standard settings.effectivePrefix nodeName
  roster := ({} : Roster).add
    { registry := registryName annotatedType
      factory := .prometheus
      encoder := .prometheus (.ofPrefix settings.effectivePrefix) nodeName
      useAnnotations := true }

/-- How many rules are installed (`Discoverer::count`). -/
def count (d : Discoverer) : Nat := d.pipelines.size

/-- The handlers of the installed rules, by the names of the rules. -/
def handlers (d : Discoverer) : List HandlerId := d.pipelines.values.map (·.handler)

/-- The installed rules by name (`Discoverer::rules`). -/
def rules (d : Discoverer) : List RuleSummary :=
  d.pipelines.values.map fun p =>
    { name := p.rule.name
      pluginType := p.rule.pluginType
      kind := p.filter.kind
      targets := (d.roster.entries p.handler).size }

/-- The targets of one handler (`TargetHandler::targets`). -/
def targetsOf (d : Discoverer) (rule pluginType : String) (id : HandlerId) : List TargetSummary :=
  (d.roster.entries id).toList.map fun e => ⟨e.1, rule, pluginType, e.2⟩

/-- All targets (`Discoverer::targets`): those of the rules by the names of the rules, then those
that asked for themselves. -/
def targets (d : Discoverer) : List TargetSummary :=
  (d.pipelines.values.flatMap fun p => d.targetsOf p.rule.name p.rule.pluginType p.handler) ++
    d.targetsOf annotatedRule annotatedType d.annotated

theorem start_targets (settings : Settings) (nodeName : String) :
    (start settings nodeName).targets = [] := rfl

end Discoverer

end ScrapeDiscovery

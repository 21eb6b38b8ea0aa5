import ScrapeDiscovery.Rule.Basic

/-!
# Discovery settings

What a discovery document sets: the annotations that discovery follows, the
rules, and how often changes are looked for. Documents may still hold two blocks
of an earlier format: a block that is ignored, and prometheus rules of a simpler
shape, which `LegacyRule.upgrade` turns into rules.
-/

namespace ScrapeDiscovery

/-- A prometheus rule of the earlier shape (`PrometheusConfig`): one namespace, and one pattern a
label. -/
structure LegacyRule where
  name : String
  resourceType : String := ""
  labels : KeyMap String := ∅
  ns : String := ""
  port : String := ""
  path : String := ""
  scheme : String := ""
  metricPrefix : String := ""
  tags : KeyMap String := ∅
  source : String := ""
  includeLabels : String := ""
  filters : MetricFilters := {}
  deriving DecidableEq, Repr, Inhabited

/-- The rule that an earlier one stands for (`PluginConfig::from`). -/
def LegacyRule.upgrade (r : LegacyRule) : Rule where
  name := r.name
  pluginType := "prometheus"
  selectors :=
    { resourceType := r.resourceType
      namespaces := if r.ns = "" then [] else [r.ns]
      labels := r.labels.map fun v => [v] }
  port := r.port
  scheme := r.scheme
  path := r.path
  source := r.source
  metricPrefix := r.metricPrefix
  tags := r.tags
  includeLabels := r.includeLabels
  filters := r.filters

/-- The annotations that discovery follows where a document names no others
(`DEFAULT_ANNOTATION_PREFIX`). -/
def defaultAnnotationPrefix : String := "prometheus.io"

/-- The settings of a discovery document (`DiscoveryConfig`). -/
structure Settings where
  /-- How often changes of the rules are looked for. -/
  interval : Duration := Duration.fiveMinutes
  /-- Stands before the `/` of the annotations that discovery follows; empty for the default. -/
  annotationPrefix : String := ""
  /-- Resources that are not discovered through annotations. -/
  annotationExcludes : List Selectors := []
  /-- Whether objects of the cluster may bring rules. -/
  runtimeRules : Bool := false
  /-- Whether nothing is discovered through annotations. -/
  annotationsDisabled : Bool := false
  rules : List Rule := []
  /-- The interval in the block that is ignored. -/
  ignoredInterval : Option Duration := none
  /-- Rules of the earlier shape that have not been upgraded. -/
  legacyRules : List LegacyRule := []
  deriving DecidableEq, Repr, Inhabited

namespace Settings

/-- The annotation prefix in effect (`DiscoveryConfig::annotation_prefix`). -/
def effectivePrefix (s : Settings) : String :=
  if s.annotationPrefix = "" then defaultAnnotationPrefix else s.annotationPrefix

/-- The settings with the rules of the earlier shape after the others
(`DiscoveryConfig::convert_prom_configs`). -/
def upgraded (s : Settings) : Settings :=
  { s with rules := s.rules ++ s.legacyRules.map LegacyRule.upgrade, legacyRules := [] }

end Settings

end ScrapeDiscovery

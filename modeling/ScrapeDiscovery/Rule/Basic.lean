import ScrapeDiscovery.Duration.Basic
import ScrapeDiscovery.KeyMap

/-!
# Discovery rules

A rule names the resources that it claims, by its selectors, and says how their
targets are scraped.
-/

namespace ScrapeDiscovery

/-- Which resources a rule claims (`Selectors`). Patterns are globs. -/
structure Selectors where
  /-- The name of a resource kind; empty for pods. -/
  resourceType : String := ""
  /-- Patterns of container images. -/
  images : List String := []
  /-- Patterns of the value of each label. -/
  labels : KeyMap (List String) := ∅
  /-- Patterns of namespaces. -/
  namespaces : List String := []
  deriving DecidableEq, Repr, Inhabited

/-- Whether nothing is selected by image, label or namespace (`Selectors::is_empty`). -/
def Selectors.isEmpty (s : Selectors) : Bool :=
  s.images.isEmpty && s.labels.isEmpty && s.namespaces.isEmpty

/-- The metrics and tags that are kept after a collection (`FilterConfig`). -/
structure MetricFilters where
  metricAllow : List String := []
  metricDeny : List String := []
  metricTagAllow : KeyMap (List String) := ∅
  metricTagDeny : KeyMap (List String) := ∅
  tagInclude : List String := []
  tagExclude : List String := []
  deriving DecidableEq, Repr, Inhabited

/-- Whether everything is kept (`FilterConfig::is_empty`). -/
def MetricFilters.isEmpty (f : MetricFilters) : Bool :=
  f.metricAllow.isEmpty && f.metricDeny.isEmpty && f.metricTagAllow.isEmpty &&
    f.metricTagDeny.isEmpty && f.tagInclude.isEmpty && f.tagExclude.isEmpty

/-- How often a target is scraped, and how long that may take (`CollectionConfig`). -/
structure Collection where
  interval : Option Duration := none
  timeout : Option Duration := none
  deriving DecidableEq, Repr, Inhabited

/-- A discovery rule (`PluginConfig`). -/
structure Rule where
  /-- What tells the rule from others. -/
  name : String
  /-- The plugin that scrapes: `prometheus`, or `telegraf/` and the name of an input. -/
  pluginType : String
  selectors : Selectors := {}
  port : String := ""
  scheme : String := ""
  path : String := ""
  /-- Settings of the plugin: for telegraf a template, for prometheus a YAML document. -/
  conf : String := ""
  source : String := ""
  /-- Stands before the names of all metrics. -/
  metricPrefix : String := ""
  tags : KeyMap String := ∅
  /-- Whether labels become tags. -/
  includeLabels : String := ""
  filters : MetricFilters := {}
  collection : Collection := {}
  deriving DecidableEq, Repr, Inhabited

end ScrapeDiscovery

import ScrapeDiscovery.Datum.OfJson
import ScrapeDiscovery.Duration.Printer
import ScrapeDiscovery.Rule.Basic

/-!
# Rules in documents

Rules are read from the data of a document and written as JSON. Reading is
strict: a field that is unknown or given twice makes the rule unreadable. Only
the name and the type have to be given. A port and the switch for labels may be
written as an integer or a truth value too.
-/

namespace ScrapeDiscovery

/-! ## Reading -/

namespace Selectors

/-- The fields of selectors. -/
def fieldNames : List FieldName :=
  [⟨"resourceType", []⟩, ⟨"images", []⟩, ⟨"labels", []⟩, ⟨"namespaces", []⟩]

/-- Reads selectors (`Selectors`). -/
def ofDatum? (d : Datum) : Option Selectors := do
  let f ← d.fields? fieldNames
  return {
    resourceType := ← f.get "resourceType" Datum.text? ""
    images := ← f.get "images" (Datum.list? Datum.text?) []
    labels := ← f.get "labels" (Datum.map? (Datum.list? Datum.text?)) ∅
    namespaces := ← f.get "namespaces" (Datum.list? Datum.text?) [] }

end Selectors

namespace MetricFilters

/-- The fields of metric filters, with the names that they had before. -/
def fieldNames : List FieldName :=
  [⟨"metricAllowList", ["metricWhitelist"]⟩, ⟨"metricDenyList", ["metricBlacklist"]⟩,
    ⟨"metricTagAllowList", ["metricTagWhitelist"]⟩,
    ⟨"metricTagDenyList", ["metricTagBlacklist"]⟩, ⟨"tagInclude", []⟩, ⟨"tagExclude", []⟩]

/-- Reads metric filters (`FilterConfig`). -/
def ofDatum? (d : Datum) : Option MetricFilters := do
  let f ← d.fields? fieldNames
  return {
    metricAllow := ← f.get "metricAllowList" (Datum.list? Datum.text?) []
    metricDeny := ← f.get "metricDenyList" (Datum.list? Datum.text?) []
    metricTagAllow := ← f.get "metricTagAllowList" (Datum.map? (Datum.list? Datum.text?)) ∅
    metricTagDeny := ← f.get "metricTagDenyList" (Datum.map? (Datum.list? Datum.text?)) ∅
    tagInclude := ← f.get "tagInclude" (Datum.list? Datum.text?) []
    tagExclude := ← f.get "tagExclude" (Datum.list? Datum.text?) [] }

end MetricFilters

namespace Collection

/-- The fields of collection settings. -/
def fieldNames : List FieldName := [⟨"interval", []⟩, ⟨"timeout", []⟩]

/-- Reads collection settings (`CollectionConfig`). -/
def ofDatum? (d : Datum) : Option Collection := do
  let f ← d.fields? fieldNames
  return {
    interval := ← f.get "interval" (Datum.optional? Datum.duration?) none
    timeout := ← f.get "timeout" (Datum.optional? Datum.duration?) none }

end Collection

namespace Rule

/-- The fields of a rule. -/
def fieldNames : List FieldName :=
  [⟨"name", []⟩, ⟨"type", []⟩, ⟨"selectors", []⟩, ⟨"port", []⟩, ⟨"scheme", []⟩, ⟨"path", []⟩,
    ⟨"conf", []⟩, ⟨"source", []⟩, ⟨"prefix", []⟩, ⟨"tags", []⟩, ⟨"includeLabels", []⟩,
    ⟨"filters", []⟩, ⟨"collection", []⟩]

/-- Reads a rule (`PluginConfig`). -/
def ofDatum? (d : Datum) : Option Rule := do
  let f ← d.fields? fieldNames
  return {
    name := ← f.required? "name" Datum.text?
    pluginType := ← f.required? "type" Datum.text?
    selectors := ← f.get "selectors" Selectors.ofDatum? {}
    port := ← f.get "port" Datum.textOfAny? ""
    scheme := ← f.get "scheme" Datum.text? ""
    path := ← f.get "path" Datum.text? ""
    conf := ← f.get "conf" Datum.text? ""
    source := ← f.get "source" Datum.text? ""
    metricPrefix := ← f.get "prefix" Datum.text? ""
    tags := ← f.get "tags" (Datum.map? Datum.text?) ∅
    includeLabels := ← f.get "includeLabels" Datum.textOfAny? ""
    filters := ← f.get "filters" MetricFilters.ofDatum? {}
    collection := ← f.get "collection" Collection.ofDatum? {} }

end Rule

/-! ## Writing -/

/-- A duration as JSON, null where there is none. -/
def Duration.toJson? (d : Option Duration) : Json := Json.optionalText (d.map Duration.render)

/-- Lists of texts under keys as JSON. -/
def Json.ofTextLists (m : KeyMap (List String)) : Json := .ofMap (m.map Json.texts)

/-- Texts under keys as JSON. -/
def Json.ofTexts (m : KeyMap String) : Json := .ofMap (m.map Json.text)

/-- Selectors as JSON. -/
def Selectors.toJson (s : Selectors) : Json :=
  .object [("resourceType", .text s.resourceType), ("images", .texts s.images),
    ("labels", .ofTextLists s.labels), ("namespaces", .texts s.namespaces)]

/-- Metric filters as JSON. -/
def MetricFilters.toJson (f : MetricFilters) : Json :=
  .object [("metricAllowList", .texts f.metricAllow), ("metricDenyList", .texts f.metricDeny),
    ("metricTagAllowList", .ofTextLists f.metricTagAllow),
    ("metricTagDenyList", .ofTextLists f.metricTagDeny),
    ("tagInclude", .texts f.tagInclude), ("tagExclude", .texts f.tagExclude)]

/-- Collection settings as JSON. -/
def Collection.toJson (c : Collection) : Json :=
  .object [("interval", Duration.toJson? c.interval), ("timeout", Duration.toJson? c.timeout)]

/-- A rule as JSON. -/
def Rule.toJson (r : Rule) : Json :=
  .object [("name", .text r.name), ("type", .text r.pluginType),
    ("selectors", r.selectors.toJson), ("port", .text r.port), ("scheme", .text r.scheme),
    ("path", .text r.path), ("conf", .text r.conf), ("source", .text r.source),
    ("prefix", .text r.metricPrefix), ("tags", .ofTexts r.tags),
    ("includeLabels", .text r.includeLabels), ("filters", r.filters.toJson),
    ("collection", r.collection.toJson)]

end ScrapeDiscovery

import ScrapeDiscovery.Datum.OfYaml
import ScrapeDiscovery.Rule.Document
import ScrapeDiscovery.Settings.Basic
import ScrapeDiscovery.Text.Blank
import ScrapeDiscovery.Text.Utf8

/-!
# Settings in documents

A discovery document is a YAML text. One that holds nothing but blanks gives the
settings that hold by default. Reading is as strict as it is for rules, and a
document that cannot be read has no effect at all.
-/

namespace ScrapeDiscovery

namespace LegacyRule

/-- The fields of a rule of the earlier shape. -/
def fieldNames : List FieldName :=
  [⟨"name", []⟩, ⟨"resourceType", []⟩, ⟨"labels", []⟩, ⟨"namespace", []⟩, ⟨"port", []⟩,
    ⟨"path", []⟩, ⟨"scheme", []⟩, ⟨"prefix", []⟩, ⟨"tags", []⟩, ⟨"source", []⟩,
    ⟨"includeLabels", []⟩, ⟨"filters", []⟩]

/-- Reads a rule of the earlier shape (`PrometheusConfig`). -/
def ofDatum? (d : Datum) : Option LegacyRule := do
  let f ← d.fields? fieldNames
  return {
    name := ← f.required? "name" Datum.text?
    resourceType := ← f.get "resourceType" Datum.text? ""
    labels := ← f.get "labels" (Datum.map? Datum.text?) ∅
    ns := ← f.get "namespace" Datum.text? ""
    port := ← f.get "port" Datum.textOfAny? ""
    path := ← f.get "path" Datum.text? ""
    scheme := ← f.get "scheme" Datum.text? ""
    metricPrefix := ← f.get "prefix" Datum.text? ""
    tags := ← f.get "tags" (Datum.map? Datum.text?) ∅
    source := ← f.get "source" Datum.text? ""
    includeLabels := ← f.get "includeLabels" Datum.textOfAny? ""
    filters := ← f.get "filters" MetricFilters.ofDatum? {} }

end LegacyRule

/-- Why there are no settings. -/
inductive SettingsError where
  /-- The document is not YAML, or says something else than settings. -/
  | malformed
  /-- The file is missing, or not a text. -/
  | unreadable
  deriving DecidableEq, Repr

namespace Settings

/-- The fields of settings. -/
def fieldNames : List FieldName :=
  [⟨"discovery_interval", []⟩, ⟨"annotation_prefix", []⟩, ⟨"annotation_excludes", []⟩,
    ⟨"enable_runtime_plugins", []⟩, ⟨"disable_annotation_discovery", []⟩, ⟨"plugins", []⟩,
    ⟨"global", []⟩, ⟨"prom_configs", []⟩]

/-- Reads the block that is ignored. -/
def ignoredBlock? (d : Datum) : Option (Option Duration) := do
  let f ← d.fields? [⟨"discovery_interval", []⟩]
  f.get "discovery_interval" (Datum.optional? Datum.duration?) none

/-- Reads settings and leaves the rules of the earlier shape as they are (`DiscoveryConfig`). -/
def ofDatum? (d : Datum) : Option Settings := do
  let f ← d.fields? fieldNames
  return {
    interval := ← f.get "discovery_interval" Datum.duration? Duration.fiveMinutes
    annotationPrefix := ← f.get "annotation_prefix" Datum.text? ""
    annotationExcludes := ← f.get "annotation_excludes" (Datum.list? Selectors.ofDatum?) []
    runtimeRules := ← f.get "enable_runtime_plugins" Datum.bool? false
    annotationsDisabled := ← f.get "disable_annotation_discovery" Datum.bool? false
    rules := ← f.get "plugins" (Datum.list? Rule.ofDatum?) []
    ignoredInterval := ← f.get "global" ignoredBlock? none
    legacyRules := ← f.get "prom_configs" (Datum.list? LegacyRule.ofDatum?) [] }

/-- Reads a discovery document (`DiscoveryConfig::from_yaml`). -/
def load (document : String) : Except SettingsError Settings :=
  if Text.isBlankText document then .ok {}
  else
    match (Yaml.read document).toOption.bind ofDatum? with
    | some s => .ok s.upgraded
    | none => .error .malformed

/-- Reads a discovery document from the bytes of a file, if there is one
(`DiscoveryConfig::from_file`). -/
def loadFile (bytes : Option (List Nat)) : Except SettingsError Settings :=
  match bytes.bind Text.decodeUtf8? with
  | some document => load document
  | none => .error .unreadable

/-- The rules of a discovery document (`YamlConfigLoader::load`). -/
def loadRules (document : String) : Except SettingsError (List Rule) :=
  (load document).map (·.rules)

/-- Settings as JSON, without the blocks of the earlier format. -/
def toJson (s : Settings) : Json :=
  .object [("discovery_interval", .text s.interval.render),
    ("annotation_prefix", .text s.annotationPrefix),
    ("annotation_excludes", .list (s.annotationExcludes.map Selectors.toJson)),
    ("enable_runtime_plugins", .bool s.runtimeRules),
    ("disable_annotation_discovery", .bool s.annotationsDisabled),
    ("plugins", .list (s.rules.map Rule.toJson))]

end Settings

end ScrapeDiscovery

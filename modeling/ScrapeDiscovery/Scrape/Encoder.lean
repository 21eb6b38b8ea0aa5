import ScrapeDiscovery.Datum.OfYaml
import ScrapeDiscovery.Error
import ScrapeDiscovery.Scrape.Config
import ScrapeDiscovery.Text.Blank
import ScrapeDiscovery.Text.Search

/-!
# From resources to scrape configurations

An encoder makes the scrape configuration of a resource, with the rule that
claims it or, for resources that ask for it themselves, without one. It depends
on nothing but its arguments. A setting comes from an annotation of the resource
if there is one, else from the rule, else from the encoder.

Results:
* `encode_of_not_hasAddress`: a resource without an address has no configuration.
-/

namespace ScrapeDiscovery

/-! ## Plugin types -/

/-- What the types of telegraf inputs begin with. -/
def telegrafPrefix : String := "telegraf/"

/-- The family that serves a plugin type (`family`). -/
def Family.ofPluginType (pluginType : String) : Except DiscoveryError Family :=
  if pluginType = "prometheus" then .ok .prometheus
  else if telegrafPrefix.toList.isPrefixOf pluginType.toList &&
      telegrafPrefix.length < pluginType.length then .ok .telegraf
  else .error (.unknownPluginType pluginType)

/-- The family of a name (`SourceFactory::for_family`). -/
def Family.ofName : String → Except DiscoveryError Family
  | "prometheus" => .ok .prometheus
  | "telegraf" => .ok .telegraf
  | other => .error (.unknownPluginType other)

/-- The name of the registry that the handlers of a plugin type share (`registry_name`). -/
def registryName (pluginType : String) : String :=
  String.ofList (pluginType.toList.map fun c => if c = '/' then '.' else c)

/-! ## Annotations -/

/-- The annotation that sets the metric prefix of telegraf targets (`PREFIX_ANNOTATION`). -/
def telegrafPrefixAnnotation : String := "wavefront.com/prefix"

/-- The annotation that says whether labels become tags of telegraf targets
(`LABELS_ANNOTATION`). -/
def telegrafLabelsAnnotation : String := "wavefront.com/includeLabels"

/-- The annotations of prometheus targets that begin with one prefix (`Annotations`). -/
structure AnnotationKeys where
  annotationPrefix : String
  deriving DecidableEq, Repr

namespace AnnotationKeys

/-- The annotations of a prefix, empty for the default one (`Annotations::new`). -/
def ofPrefix (annotationPrefix : String) : AnnotationKeys :=
  ⟨if annotationPrefix = "" then "prometheus.io" else annotationPrefix⟩

/-- The annotation of a setting (`Annotations::new`). -/
def key (k : AnnotationKeys) (setting : String) : String := k.annotationPrefix ++ "/" ++ setting

/-- The annotation that asks for the resource to be scraped
(`PrometheusEncoder::scrape_annotation`). -/
def scrape (k : AnnotationKeys) : String := k.key "scrape"

end AnnotationKeys

/-! ## Settings and tags -/

/-- A setting (`param`): the annotation if it is there and not empty, else the value of the rule,
else the default. -/
def setting (object : ObjectMeta) (source : Option String) (ruleValue default : String) :
    String :=
  let annotated := (source.bind object.annotations.get?).getD ""
  if annotated ≠ "" then annotated else if ruleValue ≠ "" then ruleValue else default

/-- The label that is never a tag (`POD_TEMPLATE_HASH`): it changes with every roll-out. -/
def hashLabel : String := "pod-template-hash"

/-- The tags that identify a resource (`encode_meta`): its name under its kind, and its
namespace. -/
def identityTags (kind : ResourceKind) (object : ObjectMeta) : KeyMap String :=
  let tags := (∅ : KeyMap String).insert kind.name object.name
  if object.ns = "" then tags else tags.insert "namespace" object.ns

/-- Adds tags under keys with a prefix, without those that have no key or no value
(`encode_tags`). -/
def addTags (keyPrefix : String) (tags more : KeyMap String) : KeyMap String :=
  more.toList.foldl
    (fun (tags : KeyMap String) (e : String × String) =>
      if e.1 = hashLabel || e.1 = "" || e.2 = "" then tags
      else tags.insert (keyPrefix ++ e.1) e.2)
    tags

/-- The tags of a target (`encode_tags`): the identity of the resource, the tags of the rule and, if
wanted, the labels of the resource. -/
def targetTags (kind : ResourceKind) (object : ObjectMeta) (ruleTags : KeyMap String)
    (withLabels : Bool) : KeyMap String :=
  let tags := addTags "" (identityTags kind object) ruleTags
  if withLabels then addTags "label." tags object.labels else tags

/-- The truth value of a spelling (`parse_bool`). -/
def parseBool? : String → Option Bool
  | "1" | "t" | "T" | "TRUE" | "true" | "True" => some true
  | "0" | "f" | "F" | "FALSE" | "false" | "False" => some false
  | _ => none

/-- The text of a duration that a rule may have (`format_duration`). -/
def durationText (d : Option Duration) : String := (d.map Duration.render).getD ""

/-- Reads a duration; no time at all means that none is set (`parse_duration`). -/
def readDuration (s : String) : Except Duration.Fault (Option Duration) :=
  (Duration.parse s).map fun d => if d.isZero then none else some d

/-! ## Encoders -/

/-- What a telegraf encoder falls back on (`TelegrafEncoder`). -/
structure TelegrafDefaults where
  scheme : String
  port : String
  conf : String
  deriving DecidableEq, Repr

namespace TelegrafDefaults

/-- Inputs of any kind (`TelegrafEncoder::generic`). -/
def generic : TelegrafDefaults := ⟨"http", "", ""⟩

/-- The redis input (`TelegrafEncoder::redis`). -/
def redis : TelegrafDefaults := ⟨"tcp", "6379", "servers = [\"$\x7bserver\x7d\"]\n"⟩

/-- The memcached input (`TelegrafEncoder::memcached`). -/
def memcached : TelegrafDefaults :=
  ⟨"tcp", "11211", "servers = [\"$\x7bhost\x7d:$\x7bport\x7d\"]\n"⟩

end TelegrafDefaults

/-- An encoder (`Encoder`). -/
inductive Encoder where
  /-- Prometheus endpoints; `nodeName` is the source of their metrics unless another is set. -/
  | prometheus (keys : AnnotationKeys) (nodeName : String)
  /-- Inputs of telegraf. -/
  | telegraf (defaults : TelegrafDefaults)
  deriving DecidableEq, Repr

/-- Fills in the template of a telegraf input (`TelegrafEncoder::encode`): the server with scheme
and port, the host, and the port. -/
def fillTemplate (template scheme host port : String) : String :=
  let server := scheme ++ "://" ++ host ++ ":" ++ port
  Text.replaceText "$\x7bport\x7d" port
    (Text.replaceText "$\x7bhost\x7d" host (Text.replaceText "$\x7bserver\x7d" server template))

namespace Encoder

/-- Reads a duration of a prometheus target (`PrometheusEncoder::duration`). -/
def targetDuration (keys : AnnotationKeys) (kind : ResourceKind) (object : ObjectMeta)
    (what : DurationSetting) (part : String) (ruleValue : Option Duration) :
    Except DiscoveryError (Option Duration) :=
  let value := setting object (some (keys.key part)) (durationText ruleValue) "0s"
  match readDuration value with
  | .ok d => .ok d
  | .error fault =>
    .error (.unencodable (targetName kind object) (.invalidDuration what value fault))

/-- The HTTP client of a prometheus target (`PrometheusEncoder::encode`): the one that the rule
describes, or one that goes by the annotations. -/
def targetHttpClient (keys : AnnotationKeys) (kind : ResourceKind) (object : ObjectMeta)
    (rule : Rule) : Except DiscoveryError HttpClient :=
  if Text.isBlankText rule.conf then
    let skip := setting object (some (keys.key "insecureSkipVerify")) "" "true"
    .ok { tls :=
      { insecureSkipVerify := (parseBool? skip).getD false
        serverName := setting object (some (keys.key "serverName")) "" "" } }
  else
    match (Yaml.read rule.conf).toOption.bind HttpClient.ofDatum? with
    | some client => .ok client
    | none => .error (.unencodable (targetName kind object) .invalidHttpClient)

/-- The port of a prometheus target (`sanitize_port`). The agents of kube-state-metrics name
none. -/
def targetPort (object : ObjectMeta) (port : String) : String :=
  if port = "" && Text.hasPart "kube-state-metrics".toList object.name.toList then "8080"
  else port

/-- The prometheus configuration of a resource (`PrometheusEncoder::encode`). Without a rule the
resource has to ask for it. -/
def encodePrometheus (keys : AnnotationKeys) (nodeName ip : String) (kind : ResourceKind)
    (object : ObjectMeta) (rule : Option Rule) :
    Except DiscoveryError (Option ScrapeConfig) :=
  if !hasAddress ip then .ok none
  else if rule.isNone && setting object (some keys.scrape) "" "false" ≠ "true" then .ok none
  else do
    let r := rule.getD { name := "", pluginType := "" }
    let annotated (part ruleValue default : String) : String :=
      setting object (some (keys.key part)) ruleValue default
    let interval ←
      targetDuration keys kind object .interval "collectionInterval" r.collection.interval
    let timeout ← targetDuration keys kind object .timeout "timeout" r.collection.timeout
    let scheme := annotated "scheme" r.scheme "http"
    let path := annotated "path" r.path "/metrics"
    let port := targetPort object (annotated "port" r.port "")
    let source := annotated "source" r.source nodeName
    let httpClient ← targetHttpClient keys kind object r
    return some (.prometheus {
      name := targetName kind object
      url := scheme ++ "://" ++ ip ++ (if port = "" then "" else ":" ++ port) ++ path
      source := if source = "" then object.name else source
      metricPrefix := annotated "prefix" r.metricPrefix ""
      origin := if rule.isSome then .rule else .annotated
      leaderOnly := kind = .service
      collection := { interval, timeout }
      tags := targetTags kind object r.tags
        (annotated "includeLabels" r.includeLabels "true" = "true")
      filters := r.filters
      httpClient })

/-- The name of the input that a plugin type stands for (`TelegrafEncoder::encode`). -/
def telegrafPlugin (pluginType : String) : String := Text.replaceText telegrafPrefix "" pluginType

/-- The telegraf configuration of a resource that a rule claims (`TelegrafEncoder::encode`). -/
def encodeTelegraf (defaults : TelegrafDefaults) (ip : String) (kind : ResourceKind)
    (object : ObjectMeta) (rule : Option Rule) : Option ScrapeConfig :=
  if !hasAddress ip then none
  else
    rule.map fun r =>
      let scheme := setting object none r.scheme defaults.scheme
      let port := setting object none r.port defaults.port
      let template := setting object none (Text.trimText r.conf) defaults.conf
      let labels := setting object (some telegrafLabelsAnnotation) r.includeLabels "true"
      .telegraf {
        name := targetName kind object
        plugins := [telegrafPlugin r.pluginType]
        conf := fillTemplate template scheme ip port
        metricPrefix := setting object (some telegrafPrefixAnnotation) r.metricPrefix ""
        origin := .rule
        leaderOnly := kind = .service
        collection := r.collection
        tags := targetTags kind object r.tags (labels = "true")
        filters := r.filters }

/-- The scrape configuration of a resource, if it has one (`Encoder::encode`). -/
def encode (e : Encoder) (ip : String) (kind : ResourceKind) (object : ObjectMeta)
    (rule : Option Rule) : Except DiscoveryError (Option ScrapeConfig) :=
  match e with
  | .prometheus keys nodeName => encodePrometheus keys nodeName ip kind object rule
  | .telegraf defaults => .ok (encodeTelegraf defaults ip kind object rule)

theorem encode_of_not_hasAddress {e : Encoder} {ip : String} (h : hasAddress ip = false)
    (kind : ResourceKind) (object : ObjectMeta) (rule : Option Rule) :
    e.encode ip kind object rule = .ok none := by
  cases e <;> simp [encode, encodePrometheus, encodeTelegraf, h]

end Encoder

/-! ## The encoders of the plugin types -/

/-- The encoders that plugin types have of their own (`EncoderRegistry`). -/
structure EncoderTable where
  encoders : KeyMap Encoder
  deriving DecidableEq, Repr

namespace EncoderTable

/-- The encoders that are always there (`EncoderRegistry::new`). -/
def standard (annotationPrefix nodeName : String) : EncoderTable :=
  ⟨KeyMap.ofList [("prometheus", .prometheus (.ofPrefix annotationPrefix) nodeName),
    ("telegraf/redis", .telegraf .redis), ("telegraf/memcached", .telegraf .memcached)]⟩

/-- Gives a plugin type an encoder of its own (`EncoderRegistry::register`). -/
def register (t : EncoderTable) (pluginType : String) (e : Encoder) : EncoderTable :=
  ⟨t.encoders.insert pluginType e⟩

/-- The encoder of a plugin type (`EncoderRegistry::resolve`): its own, or for telegraf inputs the
generic one. -/
def resolve (t : EncoderTable) (pluginType : String) : Except DiscoveryError Encoder :=
  match t.encoders.get? pluginType with
  | some e => .ok e
  | none =>
    match Family.ofPluginType pluginType with
    | .ok .telegraf => .ok (.telegraf .generic)
    | _ => .error (.unknownPluginType pluginType)

end EncoderTable

end ScrapeDiscovery

import ScrapeDiscovery.Resource
import ScrapeDiscovery.Rule.Document

/-!
# Scrape configurations

What a target amounts to: everything that a source of metrics needs to know
about one resource. There are two families, prometheus endpoints and inputs of
telegraf.
-/

namespace ScrapeDiscovery

/-- The families of providers (`family`). -/
inductive Family where
  | prometheus
  | telegraf
  deriving DecidableEq, Repr

/-- The name of a family. -/
def Family.name : Family → String
  | .prometheus => "prometheus"
  | .telegraf => "telegraf"

/-- How a target came to be discovered (`Discovered`). -/
inductive Origin where
  | rule
  | annotated
  deriving DecidableEq, Repr

/-- The name of an origin (`Discovered::as_str`). -/
def Origin.name : Origin → String
  | .rule => "rule"
  | .annotated => "annotation"

/-- How an HTTP client secures its connections (`TlsConfig`). -/
structure TlsSettings where
  caFile : String := ""
  certFile : String := ""
  keyFile : String := ""
  serverName : String := ""
  insecureSkipVerify : Bool := false
  deriving DecidableEq, Repr, Inhabited

/-- How an HTTP client asks for metrics (`HttpClientConfig`). -/
structure HttpClient where
  bearerToken : String := ""
  bearerTokenFile : String := ""
  tls : TlsSettings := {}
  deriving DecidableEq, Repr, Inhabited

/-- A prometheus endpoint (`PrometheusSourceConfig`). -/
structure PrometheusConfig where
  name : String
  url : String
  source : String
  metricPrefix : String
  origin : Origin
  /-- Whether only the leading agent scrapes the target. -/
  leaderOnly : Bool
  collection : Collection
  tags : KeyMap String
  filters : MetricFilters
  httpClient : HttpClient
  deriving DecidableEq, Repr

/-- An input of telegraf (`TelegrafSourceConfig`). -/
structure TelegrafConfig where
  name : String
  plugins : List String
  conf : String
  metricPrefix : String
  origin : Origin
  /-- Whether only the leading agent scrapes the target. -/
  leaderOnly : Bool
  collection : Collection
  tags : KeyMap String
  filters : MetricFilters
  deriving DecidableEq, Repr

/-- The scrape configuration of a target (`ScrapeConfig`). -/
inductive ScrapeConfig where
  | prometheus (c : PrometheusConfig)
  | telegraf (c : TelegrafConfig)
  deriving DecidableEq, Repr

namespace ScrapeConfig

/-- The family that a configuration belongs to. -/
def family : ScrapeConfig → Family
  | .prometheus _ => .prometheus
  | .telegraf _ => .telegraf

/-- The name of the target (`ScrapeConfig::name`). -/
def name : ScrapeConfig → String
  | .prometheus c => c.name
  | .telegraf c => c.name

/-- How the target was discovered (`ScrapeConfig::discovered`). -/
def origin : ScrapeConfig → Origin
  | .prometheus c => c.origin
  | .telegraf c => c.origin

/-- The tags of all metrics of the target (`ScrapeConfig::tags`). -/
def tags : ScrapeConfig → KeyMap String
  | .prometheus c => c.tags
  | .telegraf c => c.tags

end ScrapeConfig

/-! ## Writing -/

/-- TLS settings as JSON. -/
def TlsSettings.toJson (t : TlsSettings) : Json :=
  .object [("ca_file", .text t.caFile), ("cert_file", .text t.certFile),
    ("key_file", .text t.keyFile), ("server_name", .text t.serverName),
    ("insecure_skip_verify", .bool t.insecureSkipVerify)]

/-- Settings of an HTTP client as JSON. -/
def HttpClient.toJson (h : HttpClient) : Json :=
  .object [("bearer_token", .text h.bearerToken), ("bearer_token_file", .text h.bearerTokenFile),
    ("tls_config", h.tls.toJson)]

/-- A scrape configuration as JSON, its family first. -/
def ScrapeConfig.toJson : ScrapeConfig → Json
  | .prometheus c =>
    .object [("family", .text Family.prometheus.name), ("name", .text c.name),
      ("url", .text c.url), ("source", .text c.source), ("prefix", .text c.metricPrefix),
      ("discovered", .text c.origin.name), ("use_leader_election", .bool c.leaderOnly),
      ("collection", c.collection.toJson), ("tags", .ofTexts c.tags),
      ("filters", c.filters.toJson), ("http_client", c.httpClient.toJson)]
  | .telegraf c =>
    .object [("family", .text Family.telegraf.name), ("name", .text c.name),
      ("plugins", .texts c.plugins), ("conf", .text c.conf), ("prefix", .text c.metricPrefix),
      ("discovered", .text c.origin.name), ("use_leader_election", .bool c.leaderOnly),
      ("collection", c.collection.toJson), ("tags", .ofTexts c.tags),
      ("filters", c.filters.toJson)]

/-! ## Reading -/

/-- Reads TLS settings. -/
def TlsSettings.ofDatum? (d : Datum) : Option TlsSettings := do
  let f ← d.fields? [⟨"ca_file", []⟩, ⟨"cert_file", []⟩, ⟨"key_file", []⟩, ⟨"server_name", []⟩,
    ⟨"insecure_skip_verify", []⟩]
  return {
    caFile := ← f.get "ca_file" Datum.text? ""
    certFile := ← f.get "cert_file" Datum.text? ""
    keyFile := ← f.get "key_file" Datum.text? ""
    serverName := ← f.get "server_name" Datum.text? ""
    insecureSkipVerify := ← f.get "insecure_skip_verify" Datum.bool? false }

/-- Reads the settings of an HTTP client. -/
def HttpClient.ofDatum? (d : Datum) : Option HttpClient := do
  let f ← d.fields? [⟨"bearer_token", []⟩, ⟨"bearer_token_file", []⟩, ⟨"tls_config", []⟩]
  return {
    bearerToken := ← f.get "bearer_token" Datum.text? ""
    bearerTokenFile := ← f.get "bearer_token_file" Datum.text? ""
    tls := ← f.get "tls_config" TlsSettings.ofDatum? {} }

end ScrapeDiscovery

import ScrapeDiscovery.KeyMap

/-!
# Observed resources

A `Resource` is a snapshot of something that may be scraped: a pod, a service or
the API server of the cluster. Its target name is made of its kind, its
namespace and its name, with a `/` between them.

Results:
* `ofName?_name`: a kind is read back from its name.
* `isClusterScoped_iff`: only pods belong to a node.
-/

namespace ScrapeDiscovery

/-- The kinds of resources (`ResourceKind`). -/
inductive ResourceKind where
  | pod
  | service
  | apiServer
  deriving DecidableEq, Repr

namespace ResourceKind

/-- The name of a kind (`ResourceKind::as_str`). -/
def name : ResourceKind → String
  | .pod => "pod"
  | .service => "service"
  | .apiServer => "apiserver"

/-- The kind of a name; no name at all means pods (`ResourceKind::parse`). -/
def ofName? : String → Option ResourceKind
  | "" | "pod" => some .pod
  | "service" => some .service
  | "apiserver" => some .apiServer
  | _ => none

/-- Whether resources of this kind belong to the cluster and not to a node
(`ResourceKind::is_cluster_scoped`). Only the leading agent discovers them. -/
def isClusterScoped (kind : ResourceKind) : Bool := kind ≠ .pod

theorem ofName?_name (kind : ResourceKind) : ofName? kind.name = some kind := by
  cases kind <;> rfl

theorem isClusterScoped_iff {kind : ResourceKind} : kind.isClusterScoped = true ↔ kind ≠ .pod := by
  simp [isClusterScoped]

end ResourceKind

/-- The metadata of an object (`ObjectMeta`). -/
structure ObjectMeta where
  name : String := ""
  /-- The namespace, empty for objects outside of namespaces. -/
  ns : String := ""
  labels : KeyMap String := ∅
  annotations : KeyMap String := ∅
  deriving DecidableEq, Repr, Inhabited

/-- A container of a pod (`Container`): its image and the ports that it exposes. -/
structure Container where
  image : String
  ports : List Int
  deriving DecidableEq, Repr, Inhabited

/-- A snapshot of an observed resource (`Resource`). -/
structure Resource where
  kind : ResourceKind
  /-- The address to scrape: an IP address or a host name. -/
  ip : String
  object : ObjectMeta
  containers : List Container := []
  deriving DecidableEq, Repr

/-- The name of the target of an object (`target_name`): `kind/namespace/name`, or `kind/name`
outside of namespaces. Names and namespaces of objects have no `/`, so distinct objects have
distinct targets. -/
def targetName (kind : ResourceKind) (object : ObjectMeta) : String :=
  if object.ns = "" then kind.name ++ "/" ++ object.name
  else kind.name ++ "/" ++ object.ns ++ "/" ++ object.name

/-- Whether an address can be scraped (`has_ip`). Services without one have the address `None`. -/
def hasAddress (ip : String) : Bool := ip ≠ "" && ip ≠ "None"

namespace Resource

/-- The name of the target of a resource (`Resource::target_name`). -/
def targetName (r : Resource) : String := ScrapeDiscovery.targetName r.kind r.object

/-- The API server of the cluster, under the name that every pod can resolve
(`Resource::api_server`). -/
def apiServer : Resource :=
  { kind := .apiServer, ip := "kubernetes.default.svc", object := { name := "kube-apiserver" } }

end Resource

end ScrapeDiscovery

import ScrapeDiscovery.Json.Basic
import ScrapeDiscovery.Resource
import ScrapeDiscovery.Settings.Source
import ScrapeDiscovery.Text.Base64
import ScrapeDiscovery.Text.Utf8

/-!
# Objects of the cluster

Pods, services, config maps and secrets as the cluster describes them, in JSON.
A part that is missing or null is empty, a part that is not of its type makes
the object unreadable, and what is not needed is not looked at.

Pods are discovered while they run and have an address, services while they have
a cluster address. Secrets come with their data in base64.

Results:
* `discoverable_eq_resource`: what is discovered is the resource of the object.
-/

namespace ScrapeDiscovery.Cluster

/-! ## Parts of an object -/

/-- Reads a part of an object, `default` where it is missing or null. -/
def part {α : Type} (j : Json) (name : String) (read : Json → Option α) (default : α) :
    Option α :=
  match j.get? name with
  | none | some .null => some default
  | some v => read v

/-- Reads an object; anything else is none. -/
def object? : Json → Option Json
  | .object ms => some (.object ms)
  | _ => none

/-- Reads texts under keys. -/
def textMap? : Json → Option (KeyMap String)
  | .object ms =>
    (ms.mapM fun (m : String × Json) => m.2.text?.map fun t => (m.1, t)).map KeyMap.ofList
  | _ => none

/-- Reads a list. -/
def listOf? {α : Type} (read : Json → Option α) : Json → Option (List α)
  | .list xs => xs.mapM read
  | _ => none

/-- The part of an object with this name, empty where it is missing or null. -/
def section? (j : Json) (name : String) : Option Json := part j name object? (.object [])

/-- Whether an object is what it is taken for, as far as it says. -/
def isOfType (j : Json) (kind : String) : Bool :=
  let agrees (name expected : String) : Bool :=
    match j.get? name with
    | none => true
    | some v => v.text? == some expected
  agrees "kind" kind && agrees "apiVersion" "v1"

/-- Reads the metadata of an object (`object_meta`). -/
def objectMeta? (j : Json) : Option ObjectMeta := do
  let m ← section? j "metadata"
  return {
    name := ← part m "name" Json.text? ""
    ns := ← part m "namespace" Json.text? ""
    labels := ← part m "labels" textMap? ∅
    annotations := ← part m "annotations" textMap? ∅ }

/-! ## Pods and services -/

/-- An object that may be discovered. -/
structure Observed where
  /-- The resource that it is. -/
  resource : Resource
  /-- Whether it is to be discovered. -/
  isReady : Bool
  deriving DecidableEq, Repr

namespace Observed

/-- The resource of an object that is to be discovered. -/
def discoverable (o : Observed) : Option Resource := if o.isReady then some o.resource else none

theorem discoverable_eq_resource {o : Observed} {r : Resource} (h : o.discoverable = some r) :
    r = o.resource := by
  unfold discoverable at h
  split at h
  · exact (Option.some.inj h).symm
  · cases h

end Observed

/-- Reads a port of a container. -/
def containerPort? (j : Json) : Option Int := do
  let p ← object? j
  part p "containerPort" (Json.int? .int32) 0

/-- Reads a container. -/
def container? (j : Json) : Option Container := do
  let c ← object? j
  return {
    image := ← part c "image" Json.text? ""
    ports := ← part c "ports" (listOf? containerPort?) [] }

/-- Reads a pod (`pod_resource`). It is ready while it runs and has an address. -/
def pod? (j : Json) : Option Observed := do
  let j ← object? j
  guard (isOfType j "Pod")
  let object ← objectMeta? j
  let spec ← section? j "spec"
  let status ← section? j "status"
  let containers ← part spec "containers" (listOf? container?) []
  let ip ← part status "podIP" Json.text? ""
  let phase ← part status "phase" Json.text? ""
  return ⟨{ kind := .pod, ip, object, containers }, phase = "Running" && ip ≠ ""⟩

/-- Reads a service (`service_resource`). It is ready while it has a cluster address. -/
def service? (j : Json) : Option Observed := do
  let j ← object? j
  guard (isOfType j "Service")
  let object ← objectMeta? j
  let spec ← section? j "spec"
  let ip ← part spec "clusterIP" Json.text? ""
  return ⟨{ kind := .service, ip, object }, hasAddress ip⟩

/-! ## Sources of rules -/

/-- The kinds of objects that may be sources of rules. -/
inductive SourceKind where
  | configMap
  | secret
  deriving DecidableEq, Repr

namespace SourceKind

/-- The name of a kind, as the names of its sources begin. -/
def name : SourceKind → String
  | .configMap => "configmap"
  | .secret => "secret"

end SourceKind

/-- The source that an object with these data is. -/
def sourceOf (kind : SourceKind) (object : ObjectMeta) (data : KeyMap String) : RuleSource :=
  ⟨RuleSource.nameOf kind.name object.name, object.annotations, data⟩

/-- Reads a config map (`config_source`). -/
def configMap? (j : Json) : Option RuleSource := do
  let j ← object? j
  guard (isOfType j "ConfigMap")
  let object ← objectMeta? j
  let data ← part j "data" textMap? ∅
  return sourceOf .configMap object data

/-- Reads a value of a secret. Bytes that are no text are replaced. -/
def secretValue? (j : Json) : Option String :=
  (j.text?.bind Text.decodeBase64?).map Text.decodeUtf8Lossy

/-- Reads values of a secret under keys. -/
def secretValues? : Json → Option (KeyMap String)
  | .object ms =>
    (ms.mapM fun (m : String × Json) => (secretValue? m.2).map fun t => (m.1, t)).map KeyMap.ofList
  | _ => none

/-- Reads a secret (`secret_source`). -/
def secret? (j : Json) : Option RuleSource := do
  let j ← object? j
  guard (isOfType j "Secret")
  let object ← objectMeta? j
  let data ← part j "data" secretValues? ∅
  return sourceOf .secret object data

/-- Reads an object that may be a source of rules. -/
def source? : SourceKind → Json → Option RuleSource
  | .configMap => configMap?
  | .secret => secret?

end ScrapeDiscovery.Cluster

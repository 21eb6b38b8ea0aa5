import ScrapeDiscovery.Json.Basic
import ScrapeDiscovery.Resource

/-!
# Resources as JSON

A resource is written with its metadata as a part of its own and read with the
metadata beside the rest. What is not given is empty, and the API server has a
short form.
-/

namespace ScrapeDiscovery

/-- Texts under keys; what is no text is left out. -/
def Json.textMap (j : Json) : KeyMap String :=
  KeyMap.ofList (j.members.filterMap fun m => m.2.text?.map fun t => (m.1, t))

/-- The text of a member, empty where there is none. -/
def Json.textAt (j : Json) (name : String) : String := ((j.get? name).bind Json.text?).getD ""

/-- The items of a member, none where it is no list. -/
def Json.itemsAt (j : Json) (name : String) : List Json := ((j.get? name).bind Json.list?).getD []

/-- A container as JSON. -/
def Container.toJson (c : Container) : Json :=
  .object [("image", .text c.image), ("ports", .list (c.ports.map Json.int))]

/-- Reads a container. -/
def Container.ofJson (j : Json) : Container where
  image := j.textAt "image"
  ports := (j.itemsAt "ports").filterMap (Json.int? .int32)

/-- The metadata of an object as JSON. -/
def ObjectMeta.toJson (m : ObjectMeta) : Json :=
  .object [("name", .text m.name), ("namespace", .text m.ns),
    ("labels", .ofMap (m.labels.map Json.text)),
    ("annotations", .ofMap (m.annotations.map Json.text))]

/-- Reads the metadata of an object. -/
def ObjectMeta.ofJson (j : Json) : ObjectMeta where
  name := j.textAt "name"
  ns := j.textAt "namespace"
  labels := ((j.get? "labels").map Json.textMap).getD ∅
  annotations := ((j.get? "annotations").map Json.textMap).getD ∅

namespace Resource

/-- A resource as JSON. -/
def toJson (r : Resource) : Json :=
  .object [("kind", .text r.kind.name), ("ip", .text r.ip), ("meta", r.object.toJson),
    ("containers", .list (r.containers.map Container.toJson))]

/-- Reads a resource. A kind that there is not is refused with its name. -/
def ofJson (j : Json) : Except String Resource :=
  if (j.get? "api_server").bind Json.bool? = some true then .ok apiServer
  else
    match ResourceKind.ofName? (j.textAt "kind") with
    | none => .error (j.textAt "kind")
    | some kind =>
      .ok {
        kind, ip := j.textAt "ip", object := .ofJson j
        containers := (j.itemsAt "containers").map Container.ofJson }

end Resource

end ScrapeDiscovery

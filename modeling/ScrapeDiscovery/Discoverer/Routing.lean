import ScrapeDiscovery.Discoverer.Basic

/-!
# Routing resources to rules

A resource goes to every rule that claims it. Rules that held its target and no
longer claim it lose it first. A resource that no rule claims may ask for
itself. What follows from a resource is a list of calls of handlers, fixed from
the pipelines at one moment and then performed one by one.

Results:
* `discover_of_not_leading`: without leadership nothing that belongs to the cluster is
  discovered.
* `mem_claims_iff`: the claims on a resource are the rules whose filters match.
-/

namespace ScrapeDiscovery

/-- What is asked of a handler (`TargetHandler`). -/
inductive HandlerCall where
  /-- Gives up a target. -/
  | delete (id : HandlerId) (target : String)
  /-- Brings the target of a resource up to date under a rule. -/
  | handle (id : HandlerId) (resource : Resource) (rule : Rule)
  /-- Brings the target of a resource up to date that no rule claims. -/
  | annotate (resource : Resource)
  deriving DecidableEq, Repr

namespace Discoverer

/-- Lets a resource ask for itself (`Discoverer::discover_by_annotation`). The API server never
does. -/
def annotate (d : Discoverer) (resource : Resource) : Discoverer :=
  if resource.kind = .apiServer then d
  else if d.policy.allows resource then
    { d with roster :=
        d.roster.handle d.annotated resource none (!d.policy.isExcluded resource) }
  else { d with roster := d.roster.delete d.annotated resource.targetName }

/-- Performs a call. -/
def perform (d : Discoverer) : HandlerCall → Discoverer
  | .delete id target => { d with roster := d.roster.delete id target }
  | .handle id resource rule => { d with roster := d.roster.handle id resource (some rule) false }
  | .annotate resource => d.annotate resource

/-- Performs calls in their order. -/
def performAll (d : Discoverer) (calls : List HandlerCall) : Discoverer := calls.foldl perform d

/-- The pipelines that claim a resource, by the names of their rules (`Discoverer::discover`). -/
def claims (d : Discoverer) (resource : Resource) : List Pipeline :=
  d.pipelines.values.filter (·.filter.isMatch resource)

/-- The handlers that hold the target of a resource that their rules do not claim
(`Discoverer::discover`). -/
def strays (d : Discoverer) (resource : Resource) : List HandlerId :=
  (d.pipelines.values.filter fun p =>
    !p.filter.isMatch resource && d.roster.holds p.handler resource.targetName).map (·.handler)

/-- What an added or changed resource asks of the handlers (`Discoverer::discover`). Rules take
precedence over annotations. -/
def calls (d : Discoverer) (resource : Resource) : List HandlerCall :=
  (d.strays resource).map (.delete · resource.targetName) ++
    if (d.claims resource).isEmpty then [.annotate resource]
    else
      .delete d.annotated resource.targetName ::
        (d.claims resource).map fun p => .handle p.handler resource p.rule

/-- Takes in an added or changed resource (`Discoverer::discover`). Without leadership nothing that
belongs to the cluster is taken in. -/
def discover (d : Discoverer) (leading : Bool) (resource : Resource) : Discoverer :=
  if resource.kind.isClusterScoped && !leading then d else d.performAll (d.calls resource)

/-- Gives up every target of a resource that is gone (`Discoverer::delete_resource`). -/
def deleteResource (d : Discoverer) (resource : Resource) : Discoverer :=
  d.performAll
    (d.handlers.map (.delete · resource.targetName) ++ [.delete d.annotated resource.targetName])

/-- Gives up the targets of resources that belong to the cluster, and of the API server
(`Discoverer::delete_cluster_scoped`). -/
def deleteClusterScoped (d : Discoverer) (resources : List Resource) : Discoverer :=
  (resources.foldl deleteResource d).deleteResource .apiServer

theorem discover_of_not_leading {resource : Resource} (h : resource.kind ≠ .pod)
    (d : Discoverer) : d.discover false resource = d := by
  simp [discover, ResourceKind.isClusterScoped, h]

theorem mem_claims_iff {d : Discoverer} {resource : Resource} {p : Pipeline} :
    p ∈ d.claims resource ↔ p ∈ d.pipelines.values ∧ p.filter.isMatch resource = true := by
  simp [claims, List.mem_filter]

end Discoverer

end ScrapeDiscovery

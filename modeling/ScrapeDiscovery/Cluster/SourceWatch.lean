import ScrapeDiscovery.Cluster.Access
import ScrapeDiscovery.Cluster.Watching

/-!
# Watching sources of rules

Config maps are watched at once, secrets as soon as access to them is granted.
Whatever happens to the objects goes into the settings.
-/

namespace ScrapeDiscovery.Cluster

/-- A watch of the objects of a namespace that may be sources of rules (`watch_secrets`). -/
structure SourceWatch where
  kind : SourceKind
  ns : String
  access : AccessCheck
  watching : Watching RuleSource
  live : LiveSettings
  /-- How many seconds have passed. -/
  time : Nat := 0
  deriving DecidableEq, Repr

namespace SourceWatch

/-- A watch that begins (`watch_secrets`). Secrets need access first, the reviews for which have
these answers. -/
def start (kind : SourceKind) (ns : String) (objects : List RuleSource)
    (replies : List ReviewReply) (live : LiveSettings) : SourceWatch :=
  let watching : Watching RuleSource := { listing := { objects } }
  match kind with
  | .configMap =>
    { kind, ns, access := { replies := [], mayList := true }, watching := watching.restart, live }
  | .secret => { kind, ns, access := { replies }, watching, live }

/-- Lets time pass (`watch_sources`): asks for access as long as there is none, watches once there
is, and takes in what happened. -/
def pass (s : SourceWatch) (seconds : Nat) : SourceWatch :=
  let time := s.time + seconds
  let access := s.access.runUntil time
  let watching := if access.mayList && !s.access.mayList then s.watching.restart else s.watching
  { s with
    access, watching, time, live := watching.events.foldl (·.takeEvent s.kind ·) s.live }

/-- The collection that is watched. -/
def collection (s : SourceWatch) : Collection := .sources s.kind s.ns

/-- The same state with nothing told yet. -/
def afresh (s : SourceWatch) : SourceWatch :=
  { s with access := { s.access with asked := 0 }, watching := s.watching.afresh }

end SourceWatch

end ScrapeDiscovery.Cluster

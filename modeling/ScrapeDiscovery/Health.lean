import ScrapeDiscovery.Leadership

/-!
# Health

The parts of an agent report how they are. The agent is as well as the worst of
them, and it is ready once discovery has started and as long as no part is
unhealthy.

Results:
* `le_status`: no part is worse than the whole.
-/

namespace ScrapeDiscovery

/-- How a part is (`ComponentStatus`). -/
inductive HealthStatus where
  | healthy
  /-- It works, with less scope. -/
  | degraded
  | unhealthy
  deriving DecidableEq, Repr

namespace HealthStatus

/-- The name of a status. -/
def name : HealthStatus → String
  | .healthy => "healthy"
  | .degraded => "degraded"
  | .unhealthy => "unhealthy"

/-- How bad a status is. -/
def severity : HealthStatus → Nat
  | .healthy => 0
  | .degraded => 1
  | .unhealthy => 2

/-- The worse one of two (`HealthResponse::compute_status`). -/
def worse (a b : HealthStatus) : HealthStatus := if a.severity < b.severity then b else a

theorem severity_worse (a b : HealthStatus) :
    (worse a b).severity = max a.severity b.severity := by
  cases a <;> cases b <;> rfl

end HealthStatus

/-- What a part reports (`ComponentHealth`). -/
structure ComponentHealth where
  status : HealthStatus
  message : Option String := none
  /-- When it was reported, in seconds. -/
  checkedAt : Int := 0
  deriving DecidableEq, Repr

namespace ComponentHealth

/-- What the leadership of an agent amounts to (`ComponentHealth::of_leadership`). -/
def ofLeadership (l : Leadership) (now : Int) : ComponentHealth :=
  if l.failed then
    ⟨.degraded, some "leader election failed, cluster discovery disabled", now⟩
  else if l.daemon then
    ⟨.healthy,
      some (if l.leading then "leading"
        else if l.leader = "" then "no leader elected"
        else "following " ++ l.leader), now⟩
  else ⟨.healthy, none, now⟩

/-- A report as JSON. -/
def toJson (c : ComponentHealth) : Json :=
  .object <| [("status", .text c.status.name)] ++
    (c.message.map fun m => ("message", .text m)).toList ++
    [("last_check_timestamp", .int c.checkedAt)]

end ComponentHealth

/-- The reports of all parts, and whether discovery has started (`HealthRegistry`). -/
structure HealthBoard where
  components : KeyMap ComponentHealth := ∅
  started : Bool := false
  deriving DecidableEq, Repr

/-- Whether an agent is ready, and if not why (`ReadinessResponse`). -/
inductive Readiness where
  | ready
  | notStarted
  | unhealthy
  deriving DecidableEq, Repr

namespace Readiness

/-- Why an agent is not ready (`HealthRegistry::readiness`). -/
def reason? : Readiness → Option String
  | .ready => none
  | .notStarted => some "discovery not started"
  | .unhealthy => some "component unhealthy"

/-- Readiness as JSON. -/
def toJson (r : Readiness) : Json :=
  .object <| [("ready", .bool (r = .ready))] ++
    (r.reason?.map fun t => ("reason", .text t)).toList

end Readiness

namespace HealthBoard

/-- The name of the part that reports leadership. -/
def leadershipComponent : String := "leadership"

/-- The name of the part that reports discovery. -/
def discoveryComponent : String := "discovery"

/-- The name of the part that reports the settings. -/
def settingsComponent : String := "config"

/-- Takes down the report of a part (`HealthRegistry::update`). -/
def update (b : HealthBoard) (name : String) (c : ComponentHealth) : HealthBoard :=
  { b with components := b.components.insert name c }

/-- Takes down that a part is well (`HealthRegistry::set_healthy`). -/
def setHealthy (b : HealthBoard) (name : String) (now : Int) : HealthBoard :=
  b.update name ⟨.healthy, none, now⟩

/-- The worst of the parts (`HealthResponse::compute_status`). -/
def status (b : HealthBoard) : HealthStatus :=
  b.components.values.foldl (fun worst c => worst.worse c.status) .healthy

/-- Whether the agent is ready (`HealthRegistry::readiness`). -/
def readiness (b : HealthBoard) : Readiness :=
  if !b.started then .notStarted else if b.status = .unhealthy then .unhealthy else .ready

/-- The reports as JSON. -/
def toJson (b : HealthBoard) : Json :=
  .object [("status", .text b.status.name),
    ("components", .ofMap (b.components.map ComponentHealth.toJson))]

theorem le_foldl_worse (cs : List ComponentHealth) (worst : HealthStatus) :
    worst.severity ≤ (cs.foldl (fun w c => w.worse c.status) worst).severity ∧
      ∀ c ∈ cs, c.status.severity ≤
        (cs.foldl (fun w c => w.worse c.status) worst).severity := by
  induction cs generalizing worst with
  | nil => exact ⟨Nat.le_refl _, by simp⟩
  | cons d ds ih =>
    obtain ⟨h, hs⟩ := ih (worst.worse d.status)
    rw [HealthStatus.severity_worse] at h
    refine ⟨Nat.le_trans (Nat.le_max_left _ _) h, fun c hc => ?_⟩
    rcases List.mem_cons.1 hc with rfl | hc
    · exact Nat.le_trans (Nat.le_max_right _ _) h
    · exact hs c hc

/-- No part is worse than the whole. -/
theorem le_status {b : HealthBoard} {c : ComponentHealth} (h : c ∈ b.components.values) :
    c.status.severity ≤ b.status.severity :=
  (le_foldl_worse _ _).2 c h

end HealthBoard

end ScrapeDiscovery

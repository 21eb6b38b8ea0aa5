import ScrapeDiscovery.Roster.Basic

/-!
# Keeping targets and providers in step

The first section has the steps that nothing can come between: looking up an
owner, publishing a target, withdrawing an entry and retracting what was
published. Everything that a handler is asked to do is made of them. A target
belongs to the first handler of its registry that publishes it, and to that one
until it gives it up.

Results:
* `publish_of_closed`: a closed handler publishes nothing.
-/

namespace ScrapeDiscovery.Roster

/-! ## Steps that nothing comes between -/

/-- The owner of a target, if it still exists (`TargetRegistry::handler`). An owner that was dropped
is forgotten. -/
def owner (r : Roster) (registry target : String) : Option HandlerId × Roster :=
  match (r.owners registry).get? target with
  | none => (none, r)
  | some id =>
    if (r.handler? id).isSome then (some id, r)
    else
      (none,
        { r with registries := r.registries.insert registry ((r.owners registry).erase target) })

/-- Records the owner of a target (`TargetRegistry::register`). -/
def enroll (r : Roster) (registry target : String) (id : HandlerId) : Roster :=
  { r with registries := r.registries.insert registry ((r.owners registry).insert target id) }

/-- Records that a target has no owner (`TargetRegistry::unregister`). -/
def unenroll (r : Roster) (registry target : String) : Roster :=
  { r with registries := r.registries.insert registry ((r.owners registry).erase target) }

/-- Adds a provider to the catalog (`ProviderHandler::add_provider`). -/
def addProvider (r : Roster) (p : Provider) : Roster :=
  { r with catalog := r.catalog.insert p.name p, calls := r.calls ++ [.add p.name p.config] }

/-- Deletes a provider from the catalog (`ProviderHandler::delete_provider`). -/
def deleteProvider (r : Roster) (name : String) : Roster :=
  { r with catalog := r.catalog.erase name, calls := r.calls ++ [.delete name] }

/-- Makes a handler hold a target, with its provider and as its owner (`TargetHandler::register`). A
closed handler refuses. -/
def publish (r : Roster) (id : HandlerId) (target : String) (config : ScrapeConfig)
    (p : Provider) : Option Roster :=
  match r.handler? id with
  | none => none
  | some h =>
    if h.closed then none
    else
      some <|
        ((r.update id fun h => { h with entries := h.entries.insert target config }).addProvider
          p).enroll h.registry target id

/-- Takes targets away from a handler, but not what it published for them
(`TargetHandler::delete_missing`). -/
def withdraw (r : Roster) (id : HandlerId) (p : String → Bool) : Roster :=
  r.update id fun h => { h with entries := h.entries.filter fun target _ => !p target }

/-- Takes the provider and the recorded owner of a target away, if the owner asks
(`TargetHandler::delete_provider`). -/
def retract (r : Roster) (id : HandlerId) (target : String) : Roster :=
  match r.handler? id with
  | none => r
  | some h =>
    match r.owner h.registry target with
    | (owner, r) =>
      if owner = some id then
        (r.deleteProvider (providerName h.factory.factoryName target)).unenroll h.registry target
      else r

/-! ## What a handler does -/

/-- Gives up a target (`TargetHandler::unregister`). -/
def release (r : Roster) (id : HandlerId) (target : String) : Roster :=
  match r.handler? id with
  | none => r
  | some h =>
    ((r.withdraw id (· == target)).retract id target).report
      (.targetChanged .deleted target h.factory.factoryName)

/-- Gives up a target that the handler holds (`TargetHandler::delete`). -/
def delete (r : Roster) (id : HandlerId) (target : String) : Roster :=
  if r.holds id target then r.release id target else r

/-- Publishes the encoding of a target, unless it is the current one (`TargetHandler::handle`). -/
def renew (r : Roster) (id : HandlerId) (h : TargetHandler) (target : String)
    (current : Option ScrapeConfig) (config : ScrapeConfig) : Roster :=
  if current = some config then r
  else
    match Provider.build h.factory config with
    | .error _ => { r with mishaps := { r.mishaps with build := r.mishaps.build + 1 } }
    | .ok p =>
      match r.publish id target config p with
      | none => r
      | some r =>
        r.report (.targetChanged (if current.isSome then .updated else .added) target
          h.factory.factoryName)

/-- Brings the target of a resource up to date, unless another handler owns it
(`TargetHandler::handle`). A target that asked for itself is given up when its resource no longer
does, if that is `confirmed`. -/
def handle (r : Roster) (id : HandlerId) (resource : Resource) (rule : Option Rule)
    (confirmed : Bool) : Roster :=
  match r.handler? id with
  | none => r
  | some h =>
    let target := resource.targetName
    match r.owner h.registry target with
    | (owner, r) =>
      if owner.any (· ≠ id) then r
      else
        let current := r.encoding id target
        match h.encoder.encode resource.ip resource.kind resource.object rule with
        | .error _ => { r with mishaps := { r.mishaps with encoding := r.mishaps.encoding + 1 } }
        | .ok (some config) => r.renew id h target current config
        | .ok none =>
          if current.isSome && h.useAnnotations && confirmed then r.release id target else r

/-- Retracts targets one by one (`TargetHandler::delete_missing`). -/
def retractAll (r : Roster) (id : HandlerId) (targets : List String) : Roster :=
  targets.foldl (fun r target => r.retract id target) r

/-- The targets of a handler that `p` picks (`TargetHandler::delete_missing`). -/
def picked (r : Roster) (id : HandlerId) (p : String → Bool) : List String :=
  (r.entries id).keys.filter p

/-- Gives up the targets that `p` picks (`TargetHandler::delete_missing`). No events are
reported. -/
def dismiss (r : Roster) (id : HandlerId) (p : String → Bool) : Roster :=
  (r.withdraw id p).retractAll id (r.picked id p)

/-- Refuses new targets from now on (`TargetHandler::close`). -/
def shut (r : Roster) (id : HandlerId) : Roster := r.update id fun h => { h with closed := true }

/-- Gives up every target and refuses new ones (`TargetHandler::close`). -/
def close (r : Roster) (id : HandlerId) : Roster := (r.shut id).dismiss id fun _ => true

/-! ## Laws -/

theorem publish_of_closed {r : Roster} {id : HandlerId} {h : TargetHandler}
    (hr : r.handler? id = some h) (hc : h.closed = true) (target : String) (config : ScrapeConfig)
    (p : Provider) : r.publish id target config p = none := by
  simp [publish, hr, hc]

end ScrapeDiscovery.Roster

import ScrapeDiscovery.Agent.Basic

/-!
# Watching resources

A manager takes in what the watches of resources report. It remembers every
resource that is known to exist, so that resources can be taken in once more
when the rules change. Pods are always watched, services only while the agent
leads.

Each operation here is one that nothing comes between in a running agent; what
the tasks of a manager do with them is in `Manager.Tasks`.
-/

namespace ScrapeDiscovery

/-- A change of watched resources (`ResourceEvent`). -/
inductive ResourceEvent where
  | applied (r : Resource)
  | deleted (r : Resource)
  /-- All resources of the kind; what is missing is gone. -/
  | restarted (rs : List Resource)
  deriving DecidableEq, Repr

/-- How far a watch has come. -/
inductive WatchPhase where
  /-- It has not begun to report. -/
  | starting
  /-- It reports events. -/
  | reporting
  /-- It reports no more. -/
  | ended
  deriving DecidableEq, Repr

/-- How many events the queue of a watch has room for (`EVENT_BUFFER`). -/
def eventBuffer : Nat := 256

/-- How many operations on channels the runtime grants a task before others have their turn. -/
def turnBudget : Nat := 128

/-- A watch of the resources of one kind. The producer of its events and the queue that they are
taken in from belong to one task (`DiscoveryManager::spawn_watch`). -/
structure Watch where
  kind : ResourceKind
  phase : WatchPhase := .starting
  /-- Events that were reported and are still with the producer, the oldest first. -/
  reported : List ResourceEvent := []
  /-- Events in the queue, the oldest first. -/
  pending : List ResourceEvent := []
  deriving DecidableEq, Repr

namespace Watch

/-- Reports an event to the producer, if the watch still reports (`ResourceWatcher::watch`). -/
def report? (w : Watch) (e : ResourceEvent) : Option Watch :=
  if w.phase = .reporting then some { w with reported := w.reported ++ [e] } else none

/-- Ends a watch, if it still reports. -/
def finish? (w : Watch) : Option Watch :=
  if w.phase = .reporting then some { w with phase := .ended } else none

/-- The producer puts its next event into the queue, if there is room. -/
def enqueue? (w : Watch) : Option Watch :=
  match w.reported with
  | [] => none
  | e :: es =>
    if w.pending.length < eventBuffer then
      some { w with reported := es, pending := w.pending ++ [e] }
    else none

/-- How many events the producer puts into the queue in one turn of the task. Each of them is
received and sent, which are two operations. -/
def handover (w : Watch) : Nat :=
  min w.reported.length (min (turnBudget / 2) (eventBuffer - w.pending.length))

/-- How many events the task can take in after that in the same turn. -/
def intake (w : Watch) : Nat := turnBudget - 2 * w.handover

/-- The queue after the producer had its turn. -/
def filled (w : Watch) : List ResourceEvent := w.pending ++ w.reported.take w.handover

/-- What the task takes in when it is its turn. -/
def due (w : Watch) : List ResourceEvent := w.filled.take w.intake

/-- The watch after a turn of its task. -/
def turned (w : Watch) : Watch :=
  { w with
    phase := if w.phase = .starting then .reporting else w.phase
    reported := w.reported.drop w.handover
    pending := w.filled.drop w.intake }

/-- Whether no event is left to take in. -/
def isIdle (w : Watch) : Bool := w.reported.isEmpty && w.pending.isEmpty

end Watch

/-- The subscription of a manager to leadership (`DiscoveryManager::spawn_leadership`). -/
structure Follower where
  receiver : LeadershipReceiver
  /-- Whether the leadership at the start was looked at. -/
  begun : Bool := false
  deriving DecidableEq, Repr

/-- The tasks of a manager (`ManagerState`). -/
inductive ManagerTask where
  /-- Takes in what is reported about pods. -/
  | pods
  /-- Takes in what is reported about services. -/
  | services
  /-- Takes in what is left in the queues of watches that were stopped. -/
  | retired
  /-- Applies changed settings. -/
  | resync
  /-- Follows leadership. -/
  | leadership
  deriving DecidableEq, Repr

/-- An agent with its watches (`DiscoveryManager`). -/
structure Manager where
  agent : Agent
  /-- Whether resources that belong to the cluster are discovered. -/
  scrapeCluster : Bool := true
  /-- How often settings are looked at without being told to. -/
  interval : Duration
  /-- The resources known to exist, by the names of their targets. -/
  cache : KeyMap Resource := ∅
  running : Bool := false
  pods : Option Watch := none
  services : Option Watch := none
  /-- Watches that were stopped, with the queues that they left. -/
  retired : List Watch := []
  /-- Whether changed settings are applied without being told to. -/
  resyncing : Bool := false
  follower : Option Follower := none
  /-- The tasks that have something to do, those woken first at the head. -/
  ready : List ManagerTask := []
  deriving DecidableEq, Repr

namespace Manager

/-- The name under which a manager subscribes to leadership (`SUBSCRIBER_NAME`). -/
def subscriberName : String := "discovery.manager"

/-- A manager that has not started, with the settings of a document (`DiscoveryManager::new`). -/
def create (settings : Settings) (nodeName : String) (daemon scrapeCluster : Bool) : Manager where
  agent := .start settings nodeName daemon
  scrapeCluster
  interval := settings.interval

/-- Whether the agent leads. -/
def leading (m : Manager) : Bool := m.agent.leadership.leading

/-- Changes what the discoverer holds. -/
def onDiscoverer (m : Manager) (f : Discoverer → Discoverer) : Manager :=
  { m with agent := { m.agent with discoverer := f m.agent.discoverer } }

/-- Wakes a task. -/
def wake (m : Manager) (t : ManagerTask) : Manager :=
  if m.ready.contains t then m else { m with ready := m.ready ++ [t] }

/-! ## Watches -/

/-- The watch of a kind of resources: that of pods, or that of services. -/
def watch? (m : Manager) : ResourceKind → Option Watch
  | .pod => m.pods
  | _ => m.services

/-- Puts a watch in its place. -/
def putWatch (m : Manager) (kind : ResourceKind) (w : Watch) : Manager :=
  match kind with
  | .pod => { m with pods := some w }
  | _ => { m with services := some w }

/-- The task of the watch of a kind. -/
def watchTask : ResourceKind → ManagerTask
  | .pod => .pods
  | _ => .services

/-- Begins to watch the resources of a kind (`DiscoveryManager::spawn_watch`). -/
def beginWatch (m : Manager) (kind : ResourceKind) : Manager :=
  (m.putWatch kind { kind }).wake (watchTask kind)

/-! ## Events -/

/-- Remembers a resource and takes it in (`apply`). -/
def discover (m : Manager) (r : Resource) : Manager :=
  { m with cache := m.cache.insert r.targetName r }.onDiscoverer (·.discover m.leading r)

/-- Forgets a resource and gives up its targets (`apply`). -/
def forget (m : Manager) (r : Resource) : Manager :=
  { m with cache := m.cache.erase r.targetName }.onDiscoverer (·.deleteResource r)

/-- The remembered resources of a kind that are missing from a complete list (`apply`). -/
def gone (m : Manager) (kind : ResourceKind) (present : List Resource) : List Resource :=
  m.cache.values.filter fun r =>
    r.kind = kind && !(present.map Resource.targetName).contains r.targetName

/-- Takes in an event of the watch of a kind (`apply`). -/
def apply (m : Manager) (kind : ResourceKind) : ResourceEvent → Manager
  | .applied r => m.discover r
  | .deleted r => m.forget r
  | .restarted rs => rs.foldl discover ((m.gone kind rs).foldl forget m)

/-! ## Settings -/

/-- Applies settings (`DiscoveryManager::resync`): who may ask for itself, then the rules. -/
def applySettings (m : Manager) (s : Settings) : Manager :=
  { m with agent := (m.agent.applySettings s).2 }

/-- The remembered resources that are taken in once more when the rules have changed
(`DiscoveryManager::resync`). -/
def snapshot (m : Manager) : List Resource :=
  m.cache.values.filter fun r => m.leading || !r.kind.isClusterScoped

/-- Takes in one remembered resource once more. -/
def replay (m : Manager) (r : Resource) : Manager := m.onDiscoverer (·.discover m.leading r)

/-- Looks at the settings in effect and answers whether they have changed
(`DiscoveryManager::resync`). -/
def lookAtSettings (m : Manager) : (Settings × Bool) × Manager :=
  let (s, live) := m.agent.live.current
  (s, { m with agent := { m.agent with live } })

/-- Counts a change of the settings that was applied (`DiscoveryManager::resync`). -/
def countReload (m : Manager) : Manager :=
  { m with agent := { m.agent with reloads := m.agent.reloads + 1 } }

/-- Applies the settings in effect if they have changed, and then takes in all remembered resources
once more (`DiscoveryManager::resync`). Answers whether they had changed. -/
def resync (m : Manager) : Bool × Manager :=
  let ((s, changed), m) := m.lookAtSettings
  if changed then
    let m := m.countReload.applySettings s
    (true, m.snapshot.foldl replay m)
  else (false, m)

/-! ## Resources that belong to the cluster -/

/-- Begins to watch services, unless they are watched or nothing is (`DiscoveryManager::resume`). -/
def resume (m : Manager) : Manager :=
  if !m.running || m.services.isSome then m
  else (m.beginWatch .service).onDiscoverer (·.refreshApiServer m.leading)

/-- The remembered resources that belong to the cluster (`DiscoveryManager::pause`). -/
def clusterScoped (m : Manager) : List Resource :=
  m.cache.values.filter (·.kind.isClusterScoped)

/-- Forgets all resources that belong to the cluster and gives up their targets
(`DiscoveryManager::pause`). -/
def purge (m : Manager) : Manager :=
  let purged := m.clusterScoped
  { m with cache := m.cache.filter fun _ r => !r.kind.isClusterScoped }.onDiscoverer
    (·.deleteClusterScoped purged)

/-- Stops a watch. What is in its queue is still taken in; what it has reported beyond that stays
with the producer, which does not put it there any longer. -/
def retire (m : Manager) (w : Watch) : Manager :=
  { m with retired := m.retired ++ [{ w with phase := .ended }] }.wake .retired

/-- Stops watching services and forgets what belongs to the cluster (`DiscoveryManager::pause`).
Where services are not watched nothing happens. -/
def pause (m : Manager) : Manager :=
  match m.services with
  | none => m
  | some w => ({ m with services := none }.retire w).purge

end Manager

end ScrapeDiscovery

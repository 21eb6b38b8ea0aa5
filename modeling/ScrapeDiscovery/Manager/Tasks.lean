import ScrapeDiscovery.Manager.Basic

/-!
# The tasks of a manager

A running manager has tasks: for each watch one that takes in what it reports,
one that applies changed settings, and, where a leader is elected, one that
follows leadership. Something happens to the manager and wakes tasks; a woken
task does what there is to do and then waits again. `settle` runs woken tasks,
those woken first before others, until all of them wait.

A manager whose settings are to be looked at without any time in between has no
task for them: such a task cannot be started.

The producer of a watch runs within its task. An event that it was told of is in the
queue of the task only after a turn, and a turn is short: what a stopped watch has in
its queue is still taken in, what its producer was told of beyond that is lost.

Results:
* `stop_of_not_running`: a manager that does not run cannot be stopped.
-/

namespace ScrapeDiscovery

namespace Manager

/-! ## What a task does -/

/-- Takes in events of the watch of a kind, one after the other
(`DiscoveryManager::spawn_watch`). -/
def takeIn (m : Manager) (kind : ResourceKind) (es : List ResourceEvent) : Manager :=
  es.foldl (·.apply kind) m

/-- One turn of the task of a watch (`DiscoveryManager::spawn_watch`). The task is woken again at
once if the budget did not suffice for all events. -/
def runWatch (m : Manager) (kind : ResourceKind) : Manager :=
  match m.watch? kind with
  | none => m
  | some w =>
    let m := (m.takeIn w.kind w.due).putWatch kind w.turned
    if w.turned.isIdle then m else m.wake (watchTask kind)

/-- Takes in the queue of a watch (`DiscoveryManager::spawn_watch`). -/
def drain (m : Manager) (w : Watch) : Manager := m.takeIn w.kind w.pending

/-- Takes in what is left in the queues of watches that were stopped. -/
def runRetired (m : Manager) : Manager := m.retired.foldl drain { m with retired := [] }

/-- Applies changed settings, if there is a wakeup to take (`DiscoveryManager::spawn_resync`). -/
def runResync (m : Manager) : Manager :=
  let (woken, live) := m.agent.live.takeWakeup
  let m := { m with agent := { m.agent with live } }
  if woken then m.resync.2 else m

/-- Follows the value of leadership that is visible (`DiscoveryManager::spawn_leadership`). -/
def follow (m : Manager) : Manager := if m.agent.leadership.visible then m.resume else m.pause

/-- Looks at leadership (`DiscoveryManager::spawn_leadership`). At first only leading counts, after
that every value that was published since. -/
def runLeadership (m : Manager) : Manager :=
  match m.follower with
  | none => m
  | some f =>
    let l := m.agent.leadership
    let m := { m with follower := some { receiver := l.caughtUp, begun := true } }
    if f.begun then if l.isNews f.receiver then m.follow else m
    else if l.visible then m.resume
    else m

/-- One turn of a task. -/
def runTask (m : Manager) : ManagerTask → Manager
  | .pods => m.runWatch .pod
  | .services => m.runWatch .service
  | .retired => m.runRetired
  | .resync => if m.resyncing then m.runResync else m
  | .leadership => m.runLeadership

/-- Runs woken tasks, at most `fuel` of them. -/
def settleWithin : (fuel : Nat) → Manager → Manager
  | 0, m => m
  | fuel + 1, m =>
    match m.ready with
    | [] => m
    | t :: ts => settleWithin fuel ({ m with ready := ts }.runTask t)

/-- How much is left to do about the events of a watch: each that is still with the producer is put
into the queue and taken from there. -/
def backlog : Option Watch → Nat
  | none => 0
  | some w => 2 * w.reported.length + w.pending.length

/-- Runs woken tasks until all wait. The task of a watch wakes itself as long as there are events,
and following leadership wakes one other task at most. -/
def settle (m : Manager) : Manager :=
  settleWithin (2 * m.ready.length + backlog m.pods + backlog m.services) m

/-! ## What happens to a manager -/

/-- Subscribes to leadership (`DiscoveryManager::spawn_leadership`). -/
def subscribe (m : Manager) : Manager :=
  let (receiver, leadership) := m.agent.leadership.subscribe subscriberName
  { m with agent := { m.agent with leadership }, follower := some { receiver } }.wake .leadership

/-- Begins to apply changed settings without being told to (`DiscoveryManager::spawn_resync`). -/
def startResync (m : Manager) : Manager :=
  if m.interval.isZero then m else { m with resyncing := true }.wake .resync

/-- Begins to watch pods (`DiscoveryManager::start`). -/
def watchPods (m : Manager) : Manager := m.beginWatch .pod

/-- Installs the rules in effect and starts the tasks (`DiscoveryManager::start`). A manager that
runs is left alone. -/
def start (m : Manager) : Manager :=
  if m.running then m
  else
    let m := { m with running := true, agent := { m.agent with enabled := true } }
    let ((s, _), m) := m.lookAtSettings
    let m := (m.applySettings s).watchPods.startResync
    if !m.scrapeCluster then m
    else if m.agent.leadership.daemon then m.subscribe
    else m.resume

/-- Stops a watch, if there is one. -/
def retireAny (m : Manager) : Option Watch → Manager
  | none => m
  | some w => m.retire w

/-- Ends every task (`DiscoveryManager::stop`). What is in the queues of watches is taken in
before. -/
def endTasks (m : Manager) : Manager :=
  let m := (m.retireAny m.services).retireAny m.pods
  { m with
    services := none, pods := none, resyncing := false, follower := none, ready := [] }.runRetired

/-- Stops everything and gives up all targets (`DiscoveryManager::stop`). A manager that does not
run is left alone. -/
def stop (m : Manager) : Manager :=
  if !m.running then m
  else
    let leadership := m.agent.leadership.unsubscribe subscriberName
    let m := { m with running := false, agent := { m.agent with leadership } }.endTasks
    let m := m.onDiscoverer Discoverer.deleteAll
    { m with cache := ∅, agent := { m.agent with enabled := false } }

/-- Changes leadership. -/
def changeLeadership (m : Manager) (f : Leadership → Leadership) : Manager :=
  let m := { m with agent := { m.agent with leadership := f m.agent.leadership } }
  match m.follower with
  | none => m
  | some follower =>
    if m.agent.leadership.isNews follower.receiver then m.wake .leadership else m

/-- Changes settings. -/
def changeSettings (m : Manager) (f : LiveSettings → LiveSettings) : Manager :=
  let m := { m with agent := { m.agent with live := f m.agent.live } }
  if m.resyncing && m.agent.live.wakeup then m.wake .resync else m

/-- Changes the watch of pods or of services. Answers whether there was one to change. -/
def changeWatch (m : Manager) (kind : ResourceKind) (f : Watch → Option Watch) : Bool × Manager :=
  match (m.watch? kind).bind f with
  | none => (false, m)
  | some w => (true, (m.putWatch kind w).wake (watchTask kind))

/-- Reports an event about pods or services. Answers whether a watch was there to take it. -/
def event (m : Manager) (kind : ResourceKind) (e : ResourceEvent) : Bool × Manager :=
  m.changeWatch kind (·.report? e)

/-- Ends the watch of pods or services. Answers whether there was one. -/
def endWatch (m : Manager) (kind : ResourceKind) : Bool × Manager :=
  m.changeWatch kind (·.finish?)

/-! ## Laws -/

theorem stop_of_not_running {m : Manager} (h : m.running = false) : m.stop = m := by
  simp [stop, h]

end Manager

end ScrapeDiscovery

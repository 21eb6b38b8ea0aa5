import ScrapeDiscovery.KeyMap
import ScrapeDiscovery.LogEvent

/-!
# Leadership

Resources that belong to the cluster are discovered by one agent, the leader.
Where an agent runs on every node it has to be elected; a single agent always
leads. When an election fails the agent gives up leading for good.

Transitions are published. A subscriber sees the latest value only, and whether
one was published since it looked.

Results:
* `lead_of_failed`: after a failure no transition counts.
-/

namespace ScrapeDiscovery

/-- What an agent knows of leadership (`Leadership`). -/
structure Leadership where
  /-- Whether an agent runs on every node, so that a leader has to be elected. -/
  daemon : Bool
  /-- Whether this agent was last said to lead. -/
  elected : Bool
  /-- Who leads, empty if that is not known. -/
  leader : String := ""
  /-- Whether an election has failed. -/
  failed : Bool := false
  subscribers : KeyMap Unit := ∅
  /-- The values published so far, the latest last, after the one at the start. -/
  published : List Bool := []
  /-- The value last made known as a measure. -/
  gauge : Bool
  /-- How many elections have failed. -/
  electionErrors : Nat := 0
  /-- The events so far, the latest last. -/
  log : List LogEvent := []
  deriving DecidableEq, Repr

/-- How much a subscriber has seen of what was published. -/
structure LeadershipReceiver where
  seen : Nat
  deriving DecidableEq, Repr

namespace Leadership

/-- Before any election (`Leadership::new`). -/
def start (daemon : Bool) : Leadership where
  daemon
  elected := !daemon
  gauge := !daemon

/-- Whether this agent leads (`Leadership::leading`). -/
def leading (l : Leadership) : Bool := !l.daemon || l.elected

/-- The value that subscribers see (`LeadershipGate::subscribe`). -/
def visible (l : Leadership) : Bool := l.published.getLast?.getD (!l.daemon)

/-- Publishes a value (`Leadership::set_leading`). -/
def publish (l : Leadership) (value : Bool) : Leadership :=
  { l with published := l.published ++ [value] }

/-- Makes a change of leadership known as a measure and as an event (`Leadership::set_leading`). -/
def measure (l : Leadership) (leading : Bool) : Leadership :=
  { l with gauge := leading, log := l.log ++ [.leadershipChanged leading l.leader] }

/-- Records who leads (`Leadership::set_leading`). After a failure, and where no leader is elected,
nothing is recorded. -/
def lead (l : Leadership) (leading : Bool) (leader : String) : Leadership :=
  if l.failed || !l.daemon then l
  else
    let recorded := { l with elected := leading, leader }
    if l.elected = leading then recorded
    else (recorded.measure leading).publish leading

/-- Gives up leading for good (`Leadership::fail`). -/
def fail (l : Leadership) : Leadership :=
  if l.failed then l
  else
    let failed :=
      { l with
        failed := true, elected := false, gauge := false, electionErrors := l.electionErrors + 1 }
    if l.elected then failed.publish false else failed

/-- Subscribes under a name (`Leadership::subscribe`). -/
def subscribe (l : Leadership) (name : String) : LeadershipReceiver × Leadership :=
  (⟨l.published.length⟩, { l with subscribers := l.subscribers.insert name () })

/-- Ends the subscription of a name (`Leadership::unsubscribe`). -/
def unsubscribe (l : Leadership) (name : String) : Leadership :=
  { l with subscribers := l.subscribers.erase name }

/-- Whether something was published that a subscriber has not seen. -/
def isNews (l : Leadership) (r : LeadershipReceiver) : Bool := r.seen ≠ l.published.length

/-- A subscriber that has seen everything. -/
def caughtUp (l : Leadership) : LeadershipReceiver := ⟨l.published.length⟩

/-- The same state with nothing told yet. -/
def afresh (l : Leadership) : Leadership := { l with log := [], electionErrors := 0 }

theorem lead_of_failed {l : Leadership} (h : l.failed = true) (leading : Bool) (leader : String) :
    l.lead leading leader = l := by
  simp [lead, h]

end Leadership

end ScrapeDiscovery

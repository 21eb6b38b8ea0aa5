import ScrapeDiscovery.Cluster.Object
import ScrapeDiscovery.Manager.Basic
import ScrapeDiscovery.Text.UrlEncoded

/-!
# Watching objects of the cluster

The objects of a collection are listed once and then watched. A watch that the
server closes is opened again from where it was. One that is too old makes the
objects be listed anew. Any other trouble is waited out: a list that fails is
asked for again, and in an open watch whatever cannot be understood is passed
over.

Results:
* `toResourceEvent_restarted`: of listed objects those that are ready are taken in.
-/

namespace ScrapeDiscovery.Cluster

/-! ## Collections -/

/-- A collection of objects of the cluster. -/
structure Collection where
  path : String
  /-- Which fields the objects have to have. -/
  fieldSelector : Option String := none
  deriving DecidableEq, Repr

namespace Collection

/-- All pods, or those of one node (`PodWatcher`). -/
def pods (node : Option String) : Collection :=
  ⟨"/api/v1/pods", node.map ("spec.nodeName=" ++ ·)⟩

/-- All services (`ServiceWatcher`). -/
def services : Collection := ⟨"/api/v1/services", none⟩

/-- The objects of a namespace that may be sources of rules (`watch_sources`). -/
def sources (kind : SourceKind) (ns : String) : Collection :=
  ⟨"/api/v1/namespaces/" ++ ns ++ "/" ++ kind.name ++ "s", none⟩

/-- The part of a query that selects the objects. -/
def query (c : Collection) : String :=
  (c.fieldSelector.map fun s => Text.encodeQuery [("fieldSelector", s)]).getD ""

end Collection

/-! ## A watched collection -/

/-- What happens to watched objects. -/
inductive ObjectEvent (α : Type) where
  | applied (object : α)
  | deleted (object : α)
  /-- All objects; what is missing is gone. -/
  | restarted (objects : List α)
  deriving DecidableEq, Repr

/-- What a server says in an open watch. -/
inductive WatchSignal (α : Type) where
  | changed (object : α)
  | deleted (object : α)
  | bookmark
  /-- The server has trouble, told by a status. -/
  | trouble (status : Nat)
  /-- Something that cannot be understood. -/
  | unreadable
  /-- The watch ends. -/
  | closed
  deriving DecidableEq, Repr

/-- The status that says that a watch is too old. -/
def expiredStatus : Nat := 410

/-- What is asked of a server. -/
inductive WatchRequest where
  | list
  | watch
  deriving DecidableEq, Repr

/-- What a server has to answer to lists. -/
structure Listing (α : Type) where
  objects : List α
  /-- How many lists fail before one succeeds. -/
  failures : Nat := 0
  deriving DecidableEq, Repr

/-- A collection that is watched. -/
structure Watching (α : Type) where
  listing : Listing α
  /-- Whether a watch is open. -/
  isOpen : Bool := false
  /-- Whether anybody takes the events. -/
  isHeard : Bool := true
  /-- What was asked so far, the latest last. -/
  requests : List WatchRequest := []
  /-- The events so far, the latest last. -/
  events : List (ObjectEvent α) := []
  deriving DecidableEq, Repr

namespace Watching

variable {α : Type}

/-- Asks the server. -/
def ask (w : Watching α) (r : WatchRequest) : Watching α := { w with requests := w.requests ++ [r] }

/-- Hands an event on (`forward`). If nobody takes it the watch is over. -/
def deliver (w : Watching α) (e : ObjectEvent α) : Watching α :=
  if w.isHeard then { w with events := w.events ++ [e] } else { w with isOpen := false }

/-- Opens a watch. -/
def openWatch (w : Watching α) : Watching α := { w.ask .watch with isOpen := true }

/-- Asks for lists until one succeeds. -/
def askForList (w : Watching α) : Watching α :=
  { w with
    requests := w.requests ++ List.replicate (w.listing.failures + 1) .list
    listing := { w.listing with failures := 0 } }

/-- Lists the objects and then watches them, unless nobody takes the list. -/
def restart (w : Watching α) : Watching α :=
  let w := ({ w with isOpen := false }.askForList).deliver (.restarted w.listing.objects)
  if w.isHeard then w.openWatch else w

/-- Takes in what the server says. Where no watch is open it is not heard. -/
def signal (w : Watching α) (s : WatchSignal α) : Watching α :=
  if !w.isOpen then w
  else
    match s with
    | .changed object => w.deliver (.applied object)
    | .deleted object => w.deliver (.deleted object)
    | .bookmark | .unreadable => w
    | .trouble status => if status = expiredStatus then w.restart else w
    | .closed => w.openWatch

/-- Lets the server have other objects and call the watch too old. -/
def relist (w : Watching α) (listing : Listing α) : Watching α :=
  { w with listing }.signal (.trouble expiredStatus)

/-- The same state with nothing told yet. -/
def afresh (w : Watching α) : Watching α := { w with requests := [], events := [] }

end Watching

/-! ## What follows from the events -/

/-- What an event of objects means for resources (`pod_event`): an object that is not ready is as
good as gone. -/
def ObjectEvent.toResourceEvent : ObjectEvent Observed → ResourceEvent
  | .applied o => if o.isReady then .applied o.resource else .deleted o.resource
  | .deleted o => .deleted o.resource
  | .restarted os => .restarted (os.filterMap Observed.discoverable)

theorem toResourceEvent_restarted (os : List Observed) :
    (ObjectEvent.restarted os).toResourceEvent =
      .restarted (os.filterMap Observed.discoverable) := rfl

end ScrapeDiscovery.Cluster

namespace ScrapeDiscovery.LiveSettings

/-- What an event of objects of a kind means for settings (`watch_sources`). -/
def takeEvent (l : LiveSettings) (kind : Cluster.SourceKind) :
    Cluster.ObjectEvent RuleSource → LiveSettings
  | .applied s => l.update s
  | .deleted s => l.delete s.name
  | .restarted ss => l.resync kind.name ss

end ScrapeDiscovery.LiveSettings

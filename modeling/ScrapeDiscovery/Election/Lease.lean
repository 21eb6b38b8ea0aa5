import ScrapeDiscovery.Json.Basic

/-!
# The lease of the leader

Agents elect a leader through a lease, an object of the cluster that names its
holder and says until when it is held. A lease that has not been renewed for its
duration is free to take.

Results:
* `holder_released`: a released lease is held by nobody.
-/

namespace ScrapeDiscovery

/-- What a lease says. Times are in microseconds. -/
structure LeaseSpec where
  holder : Option String := none
  /-- For how many seconds it is held after a renewal. -/
  duration : Option Int := none
  acquiredAt : Option Int := none
  renewedAt : Option Int := none
  /-- How often the holder has changed. -/
  transitions : Option Int := none
  deriving DecidableEq, Repr

/-- A lease. -/
structure Lease where
  name : Option String
  spec : Option LeaseSpec
  deriving DecidableEq, Repr

namespace Lease

/-- For how many seconds a lease is held after a renewal (`LEASE_DURATION_SECS`). -/
def standardDuration : Int := 15

/-- The number of microseconds in a second. -/
def second : Int := 1000000

/-- A counter of 32 bits after one more. -/
def nextCount (n : Int) : Int := Int.bmod (n + 1) 4294967296

/-- Who holds a lease, empty if nobody does (`LeaseElector::round`). -/
def holder (l : Lease) : String := (l.spec.bind (·.holder)).getD ""

/-- Whether a lease has not been renewed for longer than its duration (`is_expired`). -/
def isExpired (l : Lease) (now : Int) : Bool :=
  match l.spec.bind (·.renewedAt) with
  | none => true
  | some renewedAt =>
    (l.spec.bind (·.duration)).getD standardDuration < Int.tdiv (now - renewedAt) second

/-- A lease that somebody has just acquired (`LeaseElector::create`). -/
def create (name identity : String) (now : Int) : Lease where
  name := some name
  spec := some
    { holder := some identity
      duration := some standardDuration
      acquiredAt := some now
      renewedAt := some now
      transitions := some 0 }

/-- A lease that its holder renews, or that somebody takes over (`LeaseElector::update`). -/
def claimed (l : Lease) (identity : String) (now : Int) (takeover : Bool) : Lease :=
  let transitions := (l.spec.bind (·.transitions)).getD 0
  let spec : LeaseSpec :=
    { holder := some identity
      duration := some standardDuration
      acquiredAt := if takeover then some now else l.spec.bind (·.acquiredAt)
      renewedAt := some now
      transitions := some (if takeover then nextCount transitions else transitions) }
  { l with spec := some spec }

/-- A lease that its holder gives up (`LeaseElector::release`). -/
def released (l : Lease) : Lease := { l with spec := l.spec.map fun s => { s with holder := none } }

theorem holder_released (l : Lease) : l.released.holder = "" := by
  cases h : l.spec <;> simp [holder, released, h]

/-- The path of the leases of a namespace. -/
def collectionPath (ns : String) : String :=
  "/apis/coordination.k8s.io/v1/namespaces/" ++ ns ++ "/leases"

/-- The path of a lease. -/
def path (ns name : String) : String := collectionPath ns ++ "/" ++ name

end Lease

end ScrapeDiscovery

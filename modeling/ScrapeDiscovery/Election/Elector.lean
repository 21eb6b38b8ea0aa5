import ScrapeDiscovery.Election.Lease
import ScrapeDiscovery.Leadership

/-!
# Electing the leader

An elector tries to hold the lease, in rounds. In a round it reads the lease and
then makes it, renews it, takes it over or leaves it to its holder. A write that
somebody else was faster with counts as following. Trouble is waited out, but
for longer than a lease is held an elector does not lead without a renewal;
missing permission ends the election for good. An elector that is shut down
gives up the lease that it holds.

Results:
* `conclude_forbidden`: missing permission ends the election.
-/

namespace ScrapeDiscovery

/-! ## Rounds -/

/-- What an elector does about a lease (`LeaseElector::round`). -/
inductive ElectionPlan where
  /-- There is no lease: make one. -/
  | create
  /-- Renew the lease, or take it over. -/
  | claim (takeover : Bool)
  /-- Leave the lease to its holder. -/
  | follow (holder : String)
  deriving DecidableEq, Repr

/-- What an elector does about the lease that it has read (`LeaseElector::round`). -/
def ElectionPlan.of (identity : String) (now : Int) : Option Lease → ElectionPlan
  | none => .create
  | some l =>
    if l.holder = identity then .claim false
    else if l.holder = "" || l.isExpired now then .claim true
    else .follow l.holder

/-- How a round ends (`Round`). -/
inductive RoundOutcome where
  | leading
  | following (holder : String)
  deriving DecidableEq, Repr

/-- The status of a call that failed. -/
abbrev FailureStatus := Nat

/-- The status of a read of something that does not exist. -/
def missingStatus : FailureStatus := 404

/-- The status of a write that somebody else was faster with. -/
def conflictStatus : FailureStatus := 409

/-- Whether a status says that a permission is missing (`LeaseElector::run`). -/
def isForbidden (status : FailureStatus) : Bool := status = 401 || status = 403

/-- How a round ends that has written, or failed to (`LeaseElector::round`). -/
def RoundOutcome.ofWrite : Option FailureStatus → Except FailureStatus RoundOutcome
  | none => .ok .leading
  | some status => if status = conflictStatus then .ok (.following "") else .error status

/-! ## Electors -/

/-- An elector between two rounds (`LeaseElector`). Its clock counts microseconds. -/
structure Elector where
  identity : String
  leading : Bool := false
  /-- When it last held the lease for certain. -/
  renewedAt : Nat := 0
  deriving DecidableEq, Repr

namespace Elector

/-- How much time passes between two rounds (`RENEW_INTERVAL`): five seconds. -/
def roundInterval : Nat := 5000000

/-- For how long an elector leads without a renewal (`lease_duration`): as long as a lease is
held. -/
def patience : Nat := 15000000

/-- Draws the conclusion from a round (`LeaseElector::run`). Answers whether the election goes
on. -/
def conclude (e : Elector) (l : Leadership) (clock : Nat) :
    Except FailureStatus RoundOutcome → Bool × Elector × Leadership
  | .ok .leading => (true, { e with leading := true, renewedAt := clock }, l.lead true e.identity)
  | .ok (.following holder) => (true, { e with leading := false }, l.lead false holder)
  | .error status =>
    if isForbidden status then (false, e, l.fail)
    else if e.leading && patience < clock - e.renewedAt then
      (true, { e with leading := false }, l.lead false "")
    else (true, e, l)

/-- Ends the election (`LeaseElector::run`): an elector that leads no longer does. -/
def retire (e : Elector) (l : Leadership) : Elector × Leadership :=
  if e.leading then ({ e with leading := false }, l.lead false "") else (e, l)

theorem conclude_forbidden {status : FailureStatus} (h : isForbidden status = true)
    (e : Elector) (l : Leadership) (clock : Nat) :
    e.conclude l clock (.error status) = (false, e, l.fail) := by
  simp [conclude, h]

end Elector

/-! ## An election on a server -/

/-- What is asked of the server about a lease. -/
inductive LeaseCall where
  | get
  | create (lease : Lease)
  | replace (lease : Lease)
  deriving DecidableEq, Repr

/-- A server with at most one lease, which may be in trouble. -/
structure LeaseServer where
  lease : Option Lease := none
  /-- The status of reads, if they fail. -/
  readFailure : Option FailureStatus := none
  /-- The status of writes, if they fail. -/
  writeFailure : Option FailureStatus := none
  /-- What was asked so far, the latest last. -/
  calls : List LeaseCall := []
  deriving DecidableEq, Repr

namespace LeaseServer

/-- Takes down a call. -/
def note (s : LeaseServer) (c : LeaseCall) : LeaseServer := { s with calls := s.calls ++ [c] }

/-- Reads the lease. -/
def get (s : LeaseServer) : Except FailureStatus (Option Lease) × LeaseServer :=
  (match s.readFailure with
    | none => .ok s.lease
    | some status => if status = missingStatus then .ok none else .error status,
    s.note .get)

/-- Writes the lease. -/
def write (s : LeaseServer) (c : LeaseCall) (l : Lease) : Option FailureStatus × LeaseServer :=
  (s.writeFailure, { s.note c with lease := if s.writeFailure.isNone then some l else s.lease })

/-- A round of an elector (`LeaseElector::round`). -/
def round (s : LeaseServer) (name identity : String) (now : Int) :
    Except FailureStatus RoundOutcome × LeaseServer :=
  match s.get with
  | (.error status, s) => (.error status, s)
  | (.ok existing, s) =>
    match ElectionPlan.of identity now existing, existing with
    | .follow holder, _ => (.ok (.following holder), s)
    | .claim takeover, some l =>
      let claimed := l.claimed identity now takeover
      let (failure, s) := s.write (.replace claimed) claimed
      (RoundOutcome.ofWrite failure, s)
    | _, _ =>
      let l := Lease.create name identity now
      let (failure, s) := s.write (.create l) l
      (RoundOutcome.ofWrite failure, s)

/-- Gives up the lease, if it is held (`LeaseElector::release`). -/
def release (s : LeaseServer) (identity : String) : LeaseServer :=
  match s.get with
  | (.error _, s) | (.ok none, s) => s
  | (.ok (some l), s) =>
    if l.spec.bind (·.holder) = some identity then (s.write (.replace l.released) l.released).2
    else s

end LeaseServer

/-- An election as one elector sees it. -/
structure Election where
  server : LeaseServer := {}
  elector : Elector
  leadership : Leadership
  /-- The name of the lease. -/
  leaseName : String
  /-- Whether the election goes on. -/
  isRunning : Bool := true
  /-- How much time has passed. -/
  clock : Nat := 0
  deriving DecidableEq, Repr

namespace Election

/-- The next round, at a time (`LeaseElector::run`). -/
def round (e : Election) (now : Int) : Election :=
  if !e.isRunning then { e with clock := e.clock + Elector.roundInterval }
  else
    let (result, server) := e.server.round e.leaseName e.elector.identity now
    let (isRunning, elector, leadership) := e.elector.conclude e.leadership e.clock result
    { e with
      server, elector, leadership, isRunning, clock := e.clock + Elector.roundInterval }

/-- Shuts the elector down (`LeaseElector::run`). -/
def shutdown (e : Election) : Election :=
  if !e.isRunning then e
  else
    let server := if e.elector.leading then e.server.release e.elector.identity else e.server
    let (elector, leadership) := e.elector.retire e.leadership
    { e with server, elector, leadership, isRunning := false }

end Election

end ScrapeDiscovery

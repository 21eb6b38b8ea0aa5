import ScrapeDiscovery.Proofs.Election.Contest

/-!
# Electors that share a lease, one call at a time

A round of an elector is not over at once. The elector looks at the clock, reads the
lease, looks at the clock again to see whether what it has read has expired, and then
writes with the time of its first look. Time may pass between any two of these, and
other electors may read and write. An elector that gives up the lease does so between
two rounds, with a read and a write again.

In a rivalry electors with different identities do all this in any order, for as long
as they like. Its clock, which all of them share, never goes back. Whether an elector
holds itself to be the leader does not matter to what it writes, so it is left out, and
any elector may try to give up the lease at any time.

Results:
* `RivalStage.decide_eq`: without time in between, a decision is that of a candidate.
* `RivalStage.round_eq`, `RivalStage.release_eq`: so are the writes of a round and of a
  shutdown that nothing comes between.
* `Rivalry.get?_update`: the electors after one of them has acted.
-/

namespace ScrapeDiscovery

/-! ## Electors -/

/-- What an elector of a rivalry is about to do. -/
inductive RivalStage where
  /-- It is between two rounds. -/
  | idle
  /-- It has begun a round at some time, and is about to read the lease. -/
  | begun (now : Nat)
  /-- It has read a version of the lease in that round, and is about to decide. -/
  | informed (now : Nat) (existing : Option Lease) (seen : Nat)
  /-- It has decided to write. -/
  | writing (call : LeaseCall) (seen : Nat)
  /-- It wants to give up the lease, and is about to read it. -/
  | leaving
  /-- It has found that it holds the lease, and is about to write that it is given up. -/
  | clearing (call : LeaseCall) (seen : Nat)
  deriving DecidableEq, Repr

namespace RivalStage

/-- What an elector decides on whose round began at one time and who sees at a later time whether
    the lease has expired. -/
def decision (name id : String) (begun clock : Int) (existing : Option Lease) :
    RoundOutcome ⊕ LeaseCall :=
  match ElectionPlan.of id clock existing, existing with
  | .follow holder, _ => .inl (.following holder)
  | .claim takeover, some l => .inr (.replace (l.claimed id begun takeover))
  | _, _ => .inr (.create (Lease.create name id begun))

/-- Begins a round. -/
def begin (clock : Nat) : RivalStage → RivalStage
  | .idle => .begun clock
  | g => g

/-- Begins to give up the lease (`LeaseElector::release`). -/
def leave : RivalStage → RivalStage
  | .idle => .leaving
  | g => g

/-- Reads the lease. -/
def get (id : String) (s : LeaseStore) (failure : Option FailureStatus) : RivalStage → RivalStage
  | .begun now =>
    match s.read failure with
    | .ok existing => .informed now existing s.version
    | .error _ => .idle
  | .leaving =>
    match s.read failure with
    | .ok (some l) =>
      if l.spec.bind (·.holder) = some id then .clearing (.replace l.released) s.version else .idle
    | _ => .idle
  | g => g

/-- Decides what to do about the lease that it has read (`LeaseElector::round`). -/
def decide (name id : String) (clock : Nat) : RivalStage → RivalStage
  | .informed now existing seen =>
    match decision name id now clock existing with
    | .inl _ => .idle
    | .inr call => .writing call seen
  | g => g

/-- Writes what it has decided on. -/
def write (s : LeaseStore) (fault : Option WriteFault) : RivalStage → RivalStage × LeaseStore
  | .writing call seen | .clearing call seen => (.idle, (s.attempt seen call fault).2)
  | g => (g, s)

/-- Whether what it is about to write gives the lease up. -/
def isClearing : RivalStage → Bool
  | .clearing _ _ => true
  | _ => false

end RivalStage

/-! ## Rivalries -/

/-- Electors by their identities, and the lease that they share. -/
structure Rivalry where
  store : LeaseStore := {}
  leaseName : String
  rivals : KeyMap RivalStage
  /-- How much time has passed, in microseconds. -/
  clock : Nat := 0
  deriving DecidableEq, Repr

/-- Something that happens in a rivalry. -/
inductive RivalryAction where
  /-- Time passes. -/
  | wait (duration : Nat)
  /-- An elector begins a round. -/
  | begin (id : String)
  /-- An elector begins to give up the lease. -/
  | leave (id : String)
  /-- An elector reads the lease. -/
  | get (id : String) (failure : Option FailureStatus)
  /-- An elector decides what to do about the lease that it has read. -/
  | decide (id : String)
  /-- An elector writes the lease. -/
  | write (id : String) (fault : Option WriteFault)
  deriving DecidableEq, Repr

namespace Rivalry

/-- Lets an elector act on the store. -/
def update (r : Rivalry) (id : String) (f : RivalStage → RivalStage × LeaseStore) : Rivalry :=
  match r.rivals.get? id with
  | none => r
  | some g => { r with rivals := r.rivals.insert id (f g).1, store := (f g).2 }

/-- The state after an action. -/
def act (r : Rivalry) : RivalryAction → Rivalry
  | .wait duration => { r with clock := r.clock + duration }
  | .begin id => r.update id fun g => (g.begin r.clock, r.store)
  | .leave id => r.update id fun g => (g.leave, r.store)
  | .get id failure => r.update id fun g => (g.get id r.store failure, r.store)
  | .decide id => r.update id fun g => (g.decide r.leaseName id r.clock, r.store)
  | .write id fault => r.update id (·.write r.store fault)

/-- The state after actions, one after the other. -/
def run (r : Rivalry) (actions : List RivalryAction) : Rivalry := actions.foldl act r

/-- A rivalry that begins: there is no lease yet, and everybody is between two rounds. -/
def start (leaseName : String) (ids : List String) : Rivalry where
  leaseName
  rivals := ids.foldr (fun id rivals => rivals.insert id .idle) .empty

/-- Whether what an elector is about to write gives the lease up. -/
def isClearing (r : Rivalry) (id : String) : Bool := (r.rivals.get? id).any (·.isClearing)

/-! ## Laws -/

theorem get?_start {leaseName : String} {ids : List String} {id : String} {g : RivalStage}
    (h : (start leaseName ids).rivals.get? id = some g) : id ∈ ids ∧ g = .idle := by
  simp only [start] at h
  induction ids with
  | nil => cases h
  | cons i ids ih =>
    rcases KeyMap.get?_insert_eq_some h with ⟨rfl, rfl⟩ | ⟨-, h⟩
    · exact ⟨List.mem_cons_self, rfl⟩
    · exact ⟨List.mem_cons_of_mem i (ih h).1, (ih h).2⟩

/-- An elector after another one, or it itself, has acted. -/
theorem get?_update {r : Rivalry} {id id' : String} {f : RivalStage → RivalStage × LeaseStore}
    {g g' : RivalStage} (hg : r.rivals.get? id = some g)
    (h : (r.update id f).rivals.get? id' = some g') :
    id' = id ∧ g' = (f g).1 ∨ id' ≠ id ∧ r.rivals.get? id' = some g' := by
  rw [update, hg] at h
  exact KeyMap.get?_insert_eq_some h

theorem clock_update (r : Rivalry) (id : String) (f : RivalStage → RivalStage × LeaseStore) :
    (r.update id f).clock = r.clock := by
  unfold update
  split <;> rfl

theorem store_update {r : Rivalry} {id : String} {g : RivalStage}
    (hg : r.rivals.get? id = some g) (f : RivalStage → RivalStage × LeaseStore) :
    (r.update id f).store = (f g).2 := by
  rw [update, hg]

theorem update_of_none {r : Rivalry} {id : String} (hg : r.rivals.get? id = none)
    (f : RivalStage → RivalStage × LeaseStore) : r.update id f = r := by
  rw [update, hg]

end Rivalry

/-! ## Rounds that nothing comes between -/

namespace RivalStage

/-- An elector that needs no time to read decides as a candidate does. -/
theorem decide_eq (e : Elector) (name : String) (now : Int) (existing : Option Lease) :
    decision name e.identity now now existing = e.decide name now existing := rfl

/-- Such a round writes what the round of a candidate writes. -/
theorem round_eq {k : Candidate} (hk : k.stage = .waiting) (name : String) (s : LeaseStore)
    (clock : Nat) (failure : Option FailureStatus) (fault : Option WriteFault) :
    let id := k.elector.identity
    let round := (((idle.begin clock).get id s failure).decide name id clock).write s fault
    round.1 = .idle ∧ round.2 = ((k.read name s clock failure).write s clock fault).2 := by
  intro id round
  cases hread : s.read failure with
  | error status =>
    have hround : round = (.idle, s) := by simp only [round, begin, get, hread, decide, write]
    rw [hround, Candidate.read, hk, hread]
    exact ⟨rfl, congrArg Prod.snd (k.write_conclude clock _ s fault).symm⟩
  | ok existing =>
    cases hdecide : k.elector.decide name clock existing with
    | inl outcome =>
      have hround : round = (.idle, s) := by
        simp only [round, begin, get, hread, decide, id, decide_eq, hdecide, write]
      rw [hround]
      simp only [Candidate.read, hk, hread, hdecide, Candidate.write_conclude, and_self]
    | inr call =>
      have hround : round = (.idle, (s.attempt s.version call fault).2) := by
        simp only [round, begin, get, hread, decide, id, decide_eq, hdecide, write]
      rw [hround]
      simp only [Candidate.read, hk, hread, hdecide, Candidate.write, and_self]

/-- And giving up the lease writes what a candidate writes that is shut down while it leads. -/
theorem release_eq {k : Candidate} (hk : k.stage = .waiting) (hleading : k.elector.leading = true)
    (name : String) (s : LeaseStore) (clock : Nat) (failure : Option FailureStatus)
    (fault : Option WriteFault) :
    let release := (idle.leave.get k.elector.identity s failure).write s fault
    release.1 = .idle ∧
      release.2 = ((k.shutdown.read name s clock failure).write s clock fault).2 := by
  intro release
  have hshutdown : k.shutdown = { k with stage := .leaving } := by
    simp only [Candidate.shutdown, hk, ne_eq, not_true_eq_false, if_false, hleading, if_true]
  simp only [release, leave, get, hshutdown, Candidate.read]
  cases hread : s.read failure with
  | error status => exact ⟨rfl, rfl⟩
  | ok existing =>
    cases existing with
    | none => exact ⟨rfl, rfl⟩
    | some l =>
      dsimp only
      split
      · exact ⟨rfl, rfl⟩
      · exact ⟨rfl, rfl⟩

end RivalStage

end ScrapeDiscovery

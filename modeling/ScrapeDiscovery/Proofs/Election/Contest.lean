import ScrapeDiscovery.Election.Elector

/-!
# Electors that share a lease

Electors with different identities contend for one lease on a server. A round of an
elector is a read and, unless it follows the holder, a write that it decides on from
what it has read. Reads and writes of different electors may come in any order. The
server counts the versions of the lease: it replaces the lease only for a writer that
has read the present version, and makes one only if there is none. Any call may fail,
and a write that fails for its writer may have been carried out all the same. An
elector that is shut down between two rounds gives up the lease that it holds, which
is a read and a write again.

In a contest that is `IsPunctual` every elector runs a round each time the interval has
passed since its last one, and rounds take no time.

Results:
* `Candidate.round_eq`: a round that nothing comes between is the round of an election.
* `Candidate.release_eq`: so is a shutdown.
* `get?_update`: the candidates after one of them has acted.
-/

namespace ScrapeDiscovery

/-! ## The server -/

/-- The lease on the server, and how often it has been written. -/
structure LeaseStore where
  lease : Option Lease := none
  version : Nat := 0
  deriving DecidableEq, Repr

/-- What goes wrong with a write. -/
structure WriteFault where
  /-- What the writer is told. -/
  status : FailureStatus
  /-- Whether the server has carried the write out all the same. -/
  carriedOut : Bool := false
  deriving DecidableEq, Repr

namespace LeaseStore

/-- Reads the lease, unless that fails. -/
def read (s : LeaseStore) : Option FailureStatus → Except FailureStatus (Option Lease)
  | none => .ok s.lease
  | some status => if status = missingStatus then .ok none else .error status

/-- Stores a lease. -/
def put (s : LeaseStore) (l : Lease) : LeaseStore := { lease := some l, version := s.version + 1 }

/-- Carries out a write of somebody who has read a version, or refuses it. -/
def write (s : LeaseStore) (seen : Nat) : LeaseCall → Option FailureStatus × LeaseStore
  | .get => (none, s)
  | .create l => if s.lease.isSome then (some conflictStatus, s) else (none, s.put l)
  | .replace l =>
    if s.lease.isNone then (some missingStatus, s)
    else if s.version ≠ seen then (some conflictStatus, s)
    else (none, s.put l)

/-- A write that may fail. -/
def attempt (s : LeaseStore) (seen : Nat) (call : LeaseCall) :
    Option WriteFault → Option FailureStatus × LeaseStore
  | none => s.write seen call
  | some fault =>
    (some fault.status, if fault.carriedOut then (s.write seen call).2 else s)

end LeaseStore

/-! ## Candidates -/

/-- What an elector is about to do. -/
inductive CandidateStage where
  /-- It waits for its next round. -/
  | waiting
  /-- It is in a round, has read a version of the lease and is about to write. -/
  | writing (call : LeaseCall) (seen : Nat)
  /-- It was shut down while it led, and is about to read the lease. -/
  | leaving
  /-- It was shut down, has read a version of the lease and is about to give it up. -/
  | releasing (call : LeaseCall) (seen : Nat)
  /-- The election is over for it. -/
  | gone
  deriving DecidableEq, Repr

/-- An elector in a contest. -/
structure Candidate where
  elector : Elector
  leadership : Leadership
  stage : CandidateStage := .waiting
  /-- When its next round begins. -/
  due : Nat
  deriving DecidableEq, Repr

/-- What an elector decides on when it has read the lease (`LeaseElector::round`): to follow the
    holder, or to write. -/
def Elector.decide (e : Elector) (name : String) (now : Int) (existing : Option Lease) :
    RoundOutcome ⊕ LeaseCall :=
  match ElectionPlan.of e.identity now existing, existing with
  | .follow holder, _ => .inl (.following holder)
  | .claim takeover, some l => .inr (.replace (l.claimed e.identity now takeover))
  | _, _ => .inr (.create (Lease.create name e.identity now))

namespace Candidate

/-- An elector before its first round. -/
def fresh (identity : String) (due : Nat) : Candidate :=
  { elector := { identity }, leadership := .start true, due }

/-- Whether it is between two rounds, or has left. -/
def isIdle (k : Candidate) : Bool := k.stage = .waiting || k.stage = .gone

/-- Draws the conclusion from a round (`LeaseElector::run`). -/
def conclude (k : Candidate) (clock : Nat) (result : Except FailureStatus RoundOutcome) :
    Candidate :=
  let (goesOn, elector, leadership) := k.elector.conclude k.leadership clock result
  { elector, leadership
    stage := if goesOn then .waiting else .gone
    due := k.due + Elector.roundInterval }

/-- Ends the election. -/
def retire (k : Candidate) : Candidate :=
  let (elector, leadership) := k.elector.retire k.leadership
  { k with elector, leadership, stage := .gone }

/-- Is shut down (`LeaseElector::run`): one that leads gives up the lease first. -/
def shutdown (k : Candidate) : Candidate :=
  if k.stage ≠ .waiting then k
  else if k.elector.leading then { k with stage := .leaving }
  else k.retire

/-- Begins a round, or giving up the lease, by reading it. -/
def read (k : Candidate) (name : String) (s : LeaseStore) (clock : Nat)
    (failure : Option FailureStatus) : Candidate :=
  match k.stage, s.read failure with
  | .waiting, .error status => k.conclude clock (.error status)
  | .waiting, .ok existing =>
    match k.elector.decide name clock existing with
    | .inl outcome => k.conclude clock (.ok outcome)
    | .inr call => { k with stage := .writing call s.version }
  | .leaving, .ok (some l) =>
    if l.spec.bind (·.holder) = some k.elector.identity then
      { k with stage := .releasing (.replace l.released) s.version }
    else k.retire
  | .leaving, _ => k.retire
  | _, _ => k

/-- Writes what it has decided on. -/
def write (k : Candidate) (s : LeaseStore) (clock : Nat) (fault : Option WriteFault) :
    Candidate × LeaseStore :=
  match k.stage with
  | .writing call seen =>
    let (failure, s) := s.attempt seen call fault
    (k.conclude clock (RoundOutcome.ofWrite failure), s)
  | .releasing call seen => (k.retire, (s.attempt seen call fault).2)
  | _ => (k, s)

end Candidate

/-! ## Contests -/

/-- Electors by their identities, and the lease that they share. -/
structure Contest where
  store : LeaseStore := {}
  leaseName : String
  candidates : KeyMap Candidate
  /-- How much time has passed, in microseconds. -/
  clock : Nat := 0
  deriving DecidableEq, Repr

/-- Something that happens in a contest. -/
inductive ContestAction where
  /-- Time passes. -/
  | wait (duration : Nat)
  /-- An elector reads the lease. -/
  | read (id : String) (failure : Option FailureStatus)
  /-- An elector writes the lease. -/
  | write (id : String) (fault : Option WriteFault)
  /-- An elector is shut down. -/
  | shutdown (id : String)
  deriving DecidableEq, Repr

namespace Contest

/-- Lets a candidate act on the store. -/
def update (c : Contest) (id : String) (f : Candidate → Candidate × LeaseStore) : Contest :=
  match c.candidates.get? id with
  | none => c
  | some k => { c with candidates := c.candidates.insert id (f k).1, store := (f k).2 }

/-- The state after an action. -/
def act (c : Contest) : ContestAction → Contest
  | .wait duration => { c with clock := c.clock + duration }
  | .read id failure =>
    c.update id fun k => (k.read c.leaseName c.store c.clock failure, c.store)
  | .write id fault => c.update id (·.write c.store c.clock fault)
  | .shutdown id => c.update id fun k => (k.shutdown, c.store)

/-- The state after actions, one after the other. -/
def run (c : Contest) (actions : List ContestAction) : Contest := actions.foldl act c

/-- No action comes too early or too late: a round begins when it is due, and while somebody is in
    the middle of one, or a round is due, no time passes. -/
def IsTimely (c : Contest) : ContestAction → Prop
  | .wait duration =>
    ∀ k ∈ c.candidates.values, k.isIdle = true ∧ (k.stage = .waiting → c.clock + duration ≤ k.due)
  | .read id _ => ∀ k ∈ c.candidates.get? id, k.stage = .waiting → k.due = c.clock
  | .write _ _ => True
  | .shutdown _ => True

/-- All actions are timely. -/
def IsPunctual (c : Contest) : List ContestAction → Prop
  | [] => True
  | a :: as => c.IsTimely a ∧ (c.act a).IsPunctual as

/-- A contest that begins: a lease may be there already, nobody leads, and each elector has its
    first round at a time of its own. -/
def start (leaseName : String) (lease : Option Lease) (phases : KeyMap Nat) : Contest where
  store := { lease }
  leaseName
  candidates := ⟨phases.toList.map fun e => (e.1, .fresh e.1 e.2),
    List.pairwise_map.mpr phases.sorted⟩

/-- Whether an elector holds itself to be the leader. -/
def leads (c : Contest) (id : String) : Bool := (c.candidates.get? id).any (·.leadership.leading)

instance (c : Contest) (a : ContestAction) : Decidable (c.IsTimely a) :=
  match a with
  | .wait _ => inferInstanceAs (Decidable (∀ k ∈ _, _ ∧ (_ → _)))
  | .read id _ =>
    match h : c.candidates.get? id with
    | none => isTrue fun k hk => by rw [h] at hk; cases hk
    | some k =>
      decidable_of_iff (k.stage = .waiting → k.due = c.clock)
        ⟨fun hk k' hk' => Option.some.inj (h.symm.trans hk') ▸ hk, fun hk => hk k h⟩
  | .write _ _ => inferInstanceAs (Decidable True)
  | .shutdown _ => inferInstanceAs (Decidable True)

instance decidableIsPunctual (c : Contest) :
    (actions : List ContestAction) → Decidable (c.IsPunctual actions)
  | [] => inferInstanceAs (Decidable True)
  | a :: as =>
    have := (c.act a).decidableIsPunctual as
    inferInstanceAs (Decidable (_ ∧ _))

/-! ## Laws -/

theorem get?_start (leaseName : String) (lease : Option Lease) (phases : KeyMap Nat)
    (id : String) :
    (start leaseName lease phases).candidates.get? id =
      (phases.get? id).map (Candidate.fresh id) := by
  apply Option.ext
  intro k
  rw [← KeyMap.mem_toList_iff, Option.map_eq_some_iff]
  simp only [start, List.mem_map, Prod.mk.injEq, Prod.exists]
  constructor
  · rintro ⟨_, due, hdue, rfl, rfl⟩
    exact ⟨due, KeyMap.mem_toList_iff.mp hdue, rfl⟩
  · rintro ⟨due, hdue, rfl⟩
    exact ⟨id, due, KeyMap.mem_toList_iff.mpr hdue, rfl, rfl⟩

/-- A candidate after another one, or it itself, has acted. -/
theorem get?_update {c : Contest} {id id' : String} {f : Candidate → Candidate × LeaseStore}
    {k' : Candidate} (h : (c.update id f).candidates.get? id' = some k') :
    (id' = id ∧ ∃ k, c.candidates.get? id = some k ∧ k' = (f k).1) ∨
      id' ≠ id ∧ c.candidates.get? id' = some k' := by
  unfold update at h
  cases hk : c.candidates.get? id with
  | none =>
    rw [hk] at h
    refine Or.inr ⟨?_, h⟩
    rintro rfl
    rw [hk] at h
    cases h
  | some k =>
    rw [hk] at h
    rcases KeyMap.get?_insert_eq_some h with ⟨rfl, rfl⟩ | h
    · exact Or.inl ⟨rfl, k, rfl, rfl⟩
    · exact Or.inr h

theorem clock_update (c : Contest) (id : String) (f : Candidate → Candidate × LeaseStore) :
    (c.update id f).clock = c.clock := by
  unfold update
  split <;> rfl

theorem store_update {c : Contest} {id : String} {k : Candidate}
    (hk : c.candidates.get? id = some k) (f : Candidate → Candidate × LeaseStore) :
    (c.update id f).store = (f k).2 := by
  rw [update, hk]

end Contest

/-! ## The election of a single elector -/

/-- Somebody who has read the present lease can write it, unless the write fails. -/
theorem LeaseStore.attempt_of_current {s : LeaseStore} {call : LeaseCall} {l : Lease}
    (hcall : call = .create l ∧ s.lease = none ∨ call = .replace l ∧ s.lease.isSome = true)
    (failure : Option FailureStatus) :
    let attempt := s.attempt s.version call (failure.map fun status => { status })
    attempt.1 = failure ∧ attempt.2.lease = if failure.isNone then some l else s.lease := by
  cases failure with
  | some status => exact ⟨rfl, rfl⟩
  | none =>
    rcases hcall with ⟨rfl, hnone⟩ | ⟨rfl, hsome⟩
    · simp [attempt, write, put, hnone]
    · obtain ⟨old, hold⟩ := Option.isSome_iff_exists.mp hsome
      simp [attempt, write, put, hold]

/-- A lease that is there is not made. -/
theorem ElectionPlan.of_some_ne_create (identity : String) (now : Int) (l : Lease) :
    ElectionPlan.of identity now (some l) ≠ .create := by
  simp only [ElectionPlan.of]
  split
  · simp
  · split <;> simp

namespace Candidate

theorem stage_conclude (k : Candidate) (clock : Nat)
    (result : Except FailureStatus RoundOutcome) :
    (k.conclude clock result).stage = .waiting ∨ (k.conclude clock result).stage = .gone := by
  unfold conclude
  dsimp only
  split
  · exact Or.inl rfl
  · exact Or.inr rfl

/-- An elector that has ended its round has nothing to write. -/
theorem write_conclude (k : Candidate) (clock : Nat) (result : Except FailureStatus RoundOutcome)
    (s : LeaseStore) (fault : Option WriteFault) :
    (k.conclude clock result).write s clock fault = (k.conclude clock result, s) := by
  rcases k.stage_conclude clock result with h | h <;> simp only [write, h]

theorem get_eq (s : LeaseStore) (readFailure writeFailure : Option FailureStatus) :
    ({ lease := s.lease, readFailure, writeFailure } : LeaseServer).get =
      (s.read readFailure,
        ({ lease := s.lease, readFailure, writeFailure } : LeaseServer).note .get) := by
  cases readFailure <;> rfl

/-- What is read is the lease that is there. -/
theorem read_eq_ok {s : LeaseStore} {failure : Option FailureStatus} {existing : Option Lease}
    (hmissing : failure = some missingStatus → s.lease = none)
    (hread : s.read failure = .ok existing) : existing = s.lease := by
  cases failure with
  | none => exact (Except.ok.inj hread).symm
  | some status =>
    rw [LeaseStore.read] at hread
    split at hread
    · next hstatus => rw [← Except.ok.inj hread, hmissing (congrArg some hstatus)]
    · cases hread

/-- A round that nothing comes between is the round of an election in which the server answers in
    the same way. -/
theorem round_eq {k : Candidate} (hk : k.stage = .waiting) (name : String) (s : LeaseStore)
    (clock : Nat) {readFailure : Option FailureStatus}
    (hmissing : readFailure = some missingStatus → s.lease = none)
    (writeFailure : Option FailureStatus) :
    let server : LeaseServer := { lease := s.lease, readFailure, writeFailure }
    let round := server.round name k.elector.identity clock
    let written := (k.read name s clock readFailure).write s clock
      (writeFailure.map fun status => { status })
    written.1 = k.conclude clock round.1 ∧ written.2.lease = round.2.lease := by
  intro server round written
  have hget : server.get = (s.read readFailure, server.note .get) :=
    get_eq s readFailure writeFailure
  cases hread : s.read readFailure with
  | error status =>
    have hwritten : written = (k.conclude clock (.error status), s) := by
      simp only [written, read, hk, hread, write_conclude]
    have hround : round = (.error status, server.note .get) := by
      simp only [round, LeaseServer.round, hget, hread]
    rw [hwritten, hround]
    exact ⟨rfl, rfl⟩
  | ok existing =>
    have hlease := read_eq_ok hmissing hread
    -- both write what was decided on
    have hwrite : ∀ call l, call = .create l ∧ s.lease = none ∨
          call = .replace l ∧ s.lease.isSome = true →
        k.elector.decide name clock existing = .inr call →
        round = (RoundOutcome.ofWrite ((server.note .get).write call l).1,
          ((server.note .get).write call l).2) →
        written.1 = k.conclude clock round.1 ∧ written.2.lease = round.2.lease := by
      intro call l hcall hdecide hround
      have hattempt := LeaseStore.attempt_of_current hcall writeFailure
      have hwritten : written =
          (({ k with stage := .writing call s.version } : Candidate).conclude clock
            (RoundOutcome.ofWrite (s.attempt s.version call
              (writeFailure.map fun status => { status })).1),
            (s.attempt s.version call (writeFailure.map fun status => { status })).2) := by
        simp only [written, read, hk, hread, hdecide, write]
      rw [hwritten, hround, hattempt.1]
      exact ⟨rfl, hattempt.2⟩
    cases existing with
    | none =>
      refine hwrite _ _ (Or.inl ⟨rfl, hlease.symm⟩) rfl ?_
      simp only [round, LeaseServer.round, hget, hread, ElectionPlan.of]
    | some l =>
      cases hplan : ElectionPlan.of k.elector.identity clock (some l) with
      | create => exact absurd hplan (ElectionPlan.of_some_ne_create _ _ l)
      | claim takeover =>
        let claimed := l.claimed k.elector.identity clock takeover
        refine hwrite (.replace claimed) claimed (Or.inr ⟨rfl, hlease ▸ rfl⟩) ?_ ?_
        · simp only [Elector.decide, hplan, claimed]
        · simp only [round, LeaseServer.round, hget, hread, hplan, claimed]
      | follow holder =>
        have hwritten : written = (k.conclude clock (.ok (.following holder)), s) := by
          simp only [written, read, hk, hread, Elector.decide, hplan, write_conclude]
        have hround : round = (.ok (.following holder), server.note .get) := by
          simp only [round, LeaseServer.round, hget, hread, hplan]
        rw [hwritten, hround]
        exact ⟨rfl, rfl⟩

/-- A shutdown that nothing comes between gives up the lease as in such an election. -/
theorem release_eq {k : Candidate} (hk : k.stage = .waiting) (hleading : k.elector.leading = true)
    (name : String) (s : LeaseStore) (clock : Nat) {readFailure : Option FailureStatus}
    (hmissing : readFailure = some missingStatus → s.lease = none)
    (writeFailure : Option FailureStatus) :
    let server : LeaseServer := { lease := s.lease, readFailure, writeFailure }
    let left := (k.shutdown.read name s clock readFailure).write s clock
      (writeFailure.map fun status => { status })
    left.1 = k.retire ∧ left.2.lease = (server.release k.elector.identity).lease := by
  intro server left
  have hget : server.get = (s.read readFailure, server.note .get) :=
    get_eq s readFailure writeFailure
  have hshutdown : k.shutdown = { k with stage := .leaving } := by
    simp only [shutdown, hk, ne_eq, not_true_eq_false, if_false, hleading, if_true]
  have hleft : left = (({ k with stage := .leaving } : Candidate).read name s clock
      readFailure).write s clock (writeFailure.map fun status => { status }) := by
    simp only [left, hshutdown]
  cases hread : s.read readFailure with
  | error status =>
    simp only [hleft, read, hread, LeaseServer.release, hget]
    exact ⟨rfl, rfl⟩
  | ok existing =>
    have hlease := read_eq_ok hmissing hread
    cases existing with
    | none =>
      simp only [hleft, read, hread, LeaseServer.release, hget]
      exact ⟨rfl, rfl⟩
    | some l =>
      simp only [hleft, read, hread, LeaseServer.release, hget]
      split
      · have hthere : s.lease.isSome = true := hlease ▸ rfl
        exact ⟨rfl, (LeaseStore.attempt_of_current (Or.inr ⟨rfl, hthere⟩) writeFailure).2⟩
      · exact ⟨rfl, rfl⟩

end Candidate

end ScrapeDiscovery

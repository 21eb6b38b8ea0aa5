import ScrapeDiscovery.Proofs.Election.Tenure
import ScrapeDiscovery.Proofs.OnlySince

/-!
# What the outcomes of rounds make of leadership

An elector keeps to itself whether it leads and when it last held the lease for certain, and
leadership is told of it in several places. It leads exactly from a round in which it got the
lease, as long as other rounds fail and none of them does so after the time for which a lease is
held. What is on the server, and at what time a round ends, may be different in each round.

The election ends in a round for which a permission is missing, and when the elector is shut
down. What has happened before does not matter then, but that an elector that leads tries to
give up the lease.

Results:
* `LeaseServer.exists_round_iff`: a round can end in every way but by following oneself.
* `LeaseServer.length_calls_release`: an elector that gives up a lease asks the server.
* `InStep.round`, `inStep_run`: what is known of an election that goes on.
* `InStep.round_isFinal`, `InStep.shutdown`: how an election ends.
* `leading_iff_ledFrom`: when an elector leads, and how its election ends.
-/

namespace ScrapeDiscovery

/-- The result of a round. -/
abbrev RoundResult := Except FailureStatus RoundOutcome

/-- Whether a round ends the election. -/
def RoundResult.isFinal : RoundResult → Bool
  | .ok _ => false
  | .error status => isForbidden status

/-! ## Results of rounds -/

theorem ElectionPlan.ne_of_follow {identity holder : String} {now : Int} {lease : Option Lease}
    (h : ElectionPlan.of identity now lease = .follow holder) : holder ≠ identity := by
  cases lease with
  | none => cases h
  | some l =>
    rw [ElectionPlan.of] at h
    split at h
    · cases h
    · next hother =>
      split at h
      · cases h
      · cases h
        exact hother

theorem RoundOutcome.ofWrite_ne_following {identity : String} (hidentity : identity ≠ "")
    (failure : Option FailureStatus) : ofWrite failure ≠ .ok (.following identity) := by
  cases failure with
  | none => simp [ofWrite]
  | some status =>
    rw [ofWrite]
    split <;> simp [Ne.symm hidentity]

/-- A round can end in every way, but no elector follows itself, unless it has no name. -/
theorem LeaseServer.exists_round_iff (name identity : String) (now : Int) (result : RoundResult) :
    (∃ s : LeaseServer, (s.round name identity now).1 = result) ↔
      result ≠ .ok (.following identity) ∨ identity = "" := by
  constructor
  · rintro ⟨s, rfl⟩
    refine or_iff_not_imp_right.mpr fun hidentity => ?_
    unfold round
    split
    · simp
    · split
      · next hplan => simp [ElectionPlan.ne_of_follow hplan]
      · exact RoundOutcome.ofWrite_ne_following hidentity _
      · exact RoundOutcome.ofWrite_ne_following hidentity _
  · intro h
    cases result with
    | error status =>
      by_cases hmissing : status = missingStatus
      · exact ⟨{ writeFailure := some status }, by subst hmissing; rfl⟩
      · exact ⟨{ readFailure := some status }, by simp [round, get, hmissing]⟩
    | ok outcome =>
      cases outcome with
      | leading => exact ⟨{}, rfl⟩
      | following holder =>
        by_cases hholder : holder = ""
        · exact ⟨{ writeFailure := some conflictStatus }, by subst hholder; rfl⟩
        · have hother : holder ≠ identity := by
            rintro rfl
            exact h.elim (· rfl) hholder
          refine ⟨{ lease := some (.create name holder now) }, ?_⟩
          have hfresh : (Lease.create name holder now).isExpired now = false := by
            simp [Lease.isExpired, Lease.create, Lease.standardDuration]
          have hplan : ElectionPlan.of identity now (some (.create name holder now)) =
              .follow holder := by
            rw [ElectionPlan.of, hfresh]
            simp [Lease.create, Lease.holder, hother, hholder]
          simp [round, get, hplan]

/-- Giving up a lease begins with reading it. -/
theorem LeaseServer.length_calls_release (s : LeaseServer) (identity : String) :
    s.calls.length < (s.release identity).calls.length := by
  have hread : s.calls.length < s.get.2.calls.length := by
    simp [get, note]
  rw [release]
  cases hget : s.get with
  | mk result read =>
    rw [hget] at hread
    cases result with
    | error status => exact hread
    | ok lease =>
      cases lease with
      | none => exact hread
      | some l =>
        dsimp only at hread ⊢
        split
        · simp only [write, note, List.length_append]
          omega
        · exact hread

/-! ## Leading by the results of rounds -/

/-- The last round that did not fail has ended with the lease, at a time, and those since then
    failed for other reasons than a missing permission, none of them later than a lease is held. -/
def LedFrom (rounds : List (Nat × RoundResult)) (clock : Nat) : Prop :=
  OnlySince (fun _ r => r = (clock, .ok .leading))
    (fun r => ∃ status, r.2 = .error status ∧ isForbidden status = false ∧
      r.1 ≤ clock + Elector.patience) rounds

namespace Election

/-! ## Events -/

/-- What happens in an election, with the server as it is then. -/
inductive Event where
  /-- A round that ends at a time of the elector's clock; `now` is the time of the day. -/
  | round (server : LeaseServer) (clock : Nat) (now : Int)
  | shutdown (server : LeaseServer)
  deriving DecidableEq, Repr

/-- Lets one thing happen (`LeaseElector::run`). -/
def happen (e : Election) : Event → Election
  | .round server clock now => { e with server, clock }.round now
  | .shutdown server => { e with server }.shutdown

/-- Lets things happen one after the other. -/
def run (e : Election) (events : List Event) : Election := events.foldl happen e

/-- An election that an agent takes part in from now on. -/
def fresh (leaseName identity : String) : Election where
  elector := { identity }
  leadership := .start true
  leaseName

/-- When a round ends and how. -/
def Event.result? (leaseName identity : String) : Event → Option (Nat × RoundResult)
  | .round server clock now => some (clock, (server.round leaseName identity now).1)
  | .shutdown _ => none

/-- Whether something ends the election. -/
def Event.isFinal (leaseName identity : String) (ev : Event) : Bool :=
  match ev.result? leaseName identity with
  | some (_, result) => result.isFinal
  | none => true

/-- When the rounds end and how. -/
def results (leaseName identity : String) (events : List Event) : List (Nat × RoundResult) :=
  events.filterMap (Event.result? leaseName identity)

theorem run_concat (e : Election) (events : List Event) (ev : Event) :
    e.run (events ++ [ev]) = (e.run events).happen ev := by
  rw [run, List.foldl_append]
  rfl

/-! ## An election that has ended -/

theorem run_of_not_isRunning {e : Election} (h : e.isRunning = false) (events : List Event) :
    (e.run events).isRunning = false ∧ (e.run events).leadership = e.leadership := by
  induction events using List.reverseRecOn with
  | nil => exact ⟨h, rfl⟩
  | append_singleton events ev ih =>
    obtain ⟨hrunning, hleadership⟩ := ih
    rw [run_concat]
    cases ev with
    | round server clock now => simp [happen, round, hrunning, hleadership]
    | shutdown server => simp [happen, shutdown, hrunning, hleadership]

/-! ## An election that goes on -/

/-- What is known of an election that goes on, after rounds with certain results. -/
structure InStep (e : Election) (leaseName identity : String)
    (rounds : List (Nat × RoundResult)) : Prop where
  leaseName_eq : e.leaseName = leaseName
  identity_eq : e.elector.identity = identity
  running : e.isRunning = true
  daemon : e.leadership.daemon = true
  failed : e.leadership.failed = false
  /-- Leadership has been told what the elector has found. -/
  elected : e.leadership.elected = e.elector.leading
  ledFrom_iff : ∀ clock,
    LedFrom rounds clock ↔ e.elector.leading = true ∧ e.elector.renewedAt = clock

variable {e : Election} {leaseName identity : String} {rounds : List (Nat × RoundResult)}

theorem inStep_fresh (leaseName identity : String) :
    (fresh leaseName identity).InStep leaseName identity [] where
  leaseName_eq := rfl
  identity_eq := rfl
  running := rfl
  daemon := rfl
  failed := rfl
  elected := rfl
  ledFrom_iff _ := iff_of_false not_onlySince_nil fun h => Bool.false_ne_true h.1

theorem InStep.leading_iff (h : e.InStep leaseName identity rounds) :
    e.leadership.leading = true ↔ ∃ clock, LedFrom rounds clock := by
  rw [Leadership.leading_eq_elected h.daemon, h.elected]
  simp only [h.ledFrom_iff, exists_and_left, exists_eq', and_true]

/-- A round draws its conclusion from its result. -/
theorem InStep.happen_round (h : e.InStep leaseName identity rounds) {server : LeaseServer}
    {now : Int} {result : RoundResult}
    (hresult : (server.round leaseName identity now).1 = result) (clock : Nat) :
    e.happen (.round server clock now) =
      { e with
        server := (server.round leaseName identity now).2
        elector := (e.elector.conclude e.leadership clock result).2.1
        leadership := (e.elector.conclude e.leadership clock result).2.2
        isRunning := (e.elector.conclude e.leadership clock result).1
        clock := clock + Elector.roundInterval } := by
  subst hresult
  rw [← h.leaseName_eq, ← h.identity_eq]
  simp only [happen, Election.round, h.running, Bool.not_true, Bool.false_eq_true, if_false]

/-- A round that does not end the election. -/
theorem InStep.round (h : e.InStep leaseName identity rounds) {server : LeaseServer} {now : Int}
    {result : RoundResult} (hresult : (server.round leaseName identity now).1 = result)
    (hgoes : result.isFinal = false) (clock : Nat) :
    (e.happen (.round server clock now)).InStep leaseName identity
      (rounds ++ [(clock, result)]) := by
  have hlead := fun leading leader => Leadership.lead_eq h.daemon h.failed leading leader
  rw [h.happen_round hresult]
  cases result with
  | ok outcome =>
    cases outcome with
    | leading =>
      obtain ⟨hd, hf, he⟩ := hlead true e.elector.identity
      refine ⟨h.leaseName_eq, h.identity_eq, rfl, hd, hf, he, fun _ => ?_⟩
      simp [LedFrom, onlySince_concat, Elector.conclude]
    | following holder =>
      obtain ⟨hd, hf, he⟩ := hlead false holder
      refine ⟨h.leaseName_eq, h.identity_eq, rfl, hd, hf, he, fun _ => ?_⟩
      simp [LedFrom, onlySince_concat, Elector.conclude]
  | error status =>
    have hallowed : isForbidden status = false := hgoes
    have hled : ∀ led, LedFrom (rounds ++ [(clock, .error status)]) led ↔
        clock ≤ led + Elector.patience ∧ e.elector.leading = true ∧ e.elector.renewedAt = led := by
      intro led
      rw [LedFrom, onlySince_concat, ← LedFrom, h.ledFrom_iff]
      simp [hallowed]
    simp only [Elector.conclude, hallowed, Bool.false_eq_true, if_false]
    -- the elector either has waited for too long, or is still patient
    split
    · next hlate =>
      obtain ⟨hd, hf, he⟩ := hlead false ""
      refine ⟨h.leaseName_eq, h.identity_eq, rfl, hd, hf, he, fun led => ?_⟩
      simp only [Bool.and_eq_true, decide_eq_true_iff] at hlate
      rw [hled]
      refine iff_of_false (fun hstill => ?_) fun h => Bool.false_ne_true h.1
      omega
    · next hpatient =>
      refine ⟨h.leaseName_eq, h.identity_eq, rfl, h.daemon, h.failed, h.elected, fun led => ?_⟩
      simp only [Bool.and_eq_true, decide_eq_true_iff, not_and] at hpatient
      rw [hled]
      refine and_iff_right_of_imp fun hleads => ?_
      have hwithin := hpatient hleads.1
      omega

/-- A round that ends the election. -/
theorem InStep.round_isFinal (h : e.InStep leaseName identity rounds) {server : LeaseServer}
    {now : Int} (hfinal : RoundResult.isFinal (server.round leaseName identity now).1 = true)
    (clock : Nat) :
    let e' := e.happen (.round server clock now)
    e'.isRunning = false ∧ e'.leadership.leading = false ∧ e'.leadership.failed = true := by
  intro e'
  cases hresult : (server.round leaseName identity now).1 with
  | ok outcome =>
    rw [hresult] at hfinal
    exact absurd hfinal Bool.false_ne_true
  | error status =>
    rw [hresult] at hfinal
    have effect := Leadership.effect_call h.daemon h.failed .fail
    have hround : e' = _ := h.happen_round hresult clock
    rw [Elector.conclude_forbidden hfinal] at hround
    rw [hround]
    exact ⟨rfl, (Leadership.leading_eq_elected effect.daemon).trans effect.elected,
      effect.failed_iff.mpr rfl⟩

theorem InStep.shutdown (h : e.InStep leaseName identity rounds) (server : LeaseServer) :
    let e' := e.happen (.shutdown server)
    e'.isRunning = false ∧ e'.leadership.leading = false ∧ e'.leadership.failed = false ∧
      e'.server = if e.leadership.leading then server.release identity else server := by
  intro e'
  have hleading := Leadership.leading_eq_elected h.daemon
  have hend : e' = { e with
      server := if e.elector.leading then server.release identity else server
      elector := (e.elector.retire e.leadership).1
      leadership := (e.elector.retire e.leadership).2
      isRunning := false } := by
    simp only [e', happen, Election.shutdown, h.running, h.identity_eq, Bool.not_true,
      Bool.false_eq_true, if_false]
  rw [hend, hleading, h.elected]
  obtain ⟨hd, hf, he⟩ := Leadership.lead_eq h.daemon h.failed false ""
  unfold Elector.retire
  split
  · exact ⟨rfl, (Leadership.leading_eq_elected hd).trans he, hf, rfl⟩
  · next hnot =>
    exact ⟨rfl, (hleading.trans h.elected).trans (Bool.eq_false_iff.mpr hnot), h.failed, rfl⟩

theorem inStep_run {events : List Event}
    (hevents : ∀ ev ∈ events, ev.isFinal leaseName identity = false) :
    ((fresh leaseName identity).run events).InStep leaseName identity
      (results leaseName identity events) := by
  induction events using List.reverseRecOn with
  | nil => exact inStep_fresh leaseName identity
  | append_singleton events ev ih =>
    have hbefore := ih fun ev' hev' => hevents ev' (List.mem_append_left _ hev')
    have hgoes := hevents ev (List.mem_append_right _ (List.mem_singleton_self ev))
    rw [run_concat, results, List.filterMap_append]
    cases ev with
    | round server clock now => exact hbefore.round rfl hgoes clock
    | shutdown server => exact absurd hgoes.symm Bool.false_ne_true

/-- Let rounds go by that do not end the election, at any times and with any state of the server.
    The elector leads exactly if the last round that did not fail has ended with the lease and no
    round since then has failed more than 15 seconds later. A round for which a permission is
    missing ends the election: it has failed, the agent does not lead, and nothing that is called
    later changes that. An elector that is shut down does not lead either, and it has tried to
    give up the lease exactly if it led. -/
theorem leading_iff_ledFrom (leaseName identity : String) {events : List Event}
    (hevents : ∀ ev ∈ events, ev.isFinal leaseName identity = false) :
    let e := (fresh leaseName identity).run events
    e.isRunning = true ∧ e.leadership.failed = false ∧
      (e.leadership.leading = true ↔
        ∃ clock, LedFrom (results leaseName identity events) clock) ∧
      (∀ server clock now, RoundResult.isFinal (server.round leaseName identity now).1 = true →
        ∀ after, let e' := (e.happen (.round server clock now)).run after
          e'.isRunning = false ∧ e'.leadership.leading = false ∧ e'.leadership.failed = true ∧
            ∀ calls, e'.leadership.run calls = e'.leadership) ∧
      ∀ server, let e' := e.happen (.shutdown server)
        e'.server = (if e.leadership.leading then server.release identity else server) ∧
          (server.calls.length < e'.server.calls.length ↔ e.leadership.leading = true) ∧
          ∀ after, (e'.run after).isRunning = false ∧ (e'.run after).leadership.leading = false ∧
            (e'.run after).leadership.failed = false := by
  intro e
  have h : e.InStep leaseName identity (results leaseName identity events) := inStep_run hevents
  refine ⟨h.running, h.failed, h.leading_iff, fun server clock now hfinal after => ?_,
    fun server => ?_⟩
  · obtain ⟨hrunning, hleading, hfailed⟩ := h.round_isFinal hfinal clock
    obtain ⟨hafter, hsame⟩ := run_of_not_isRunning hrunning after
    intro e'
    rw [hsame]
    exact ⟨hafter, hleading, hfailed, Leadership.run_of_failed hfailed⟩
  · obtain ⟨hrunning, hleading, hfailed, hserver⟩ := h.shutdown server
    intro e'
    refine ⟨hserver, ?_, fun after => ?_⟩
    · rw [hserver]
      by_cases hled : e.leadership.leading = true
      · simp [hled, LeaseServer.length_calls_release]
      · simp [hled]
    · obtain ⟨hafter, hsame⟩ := run_of_not_isRunning hrunning after
      rw [hsame]
      exact ⟨hafter, hleading, hfailed⟩

/-- An elector that has got the lease leads for 15 seconds in which rounds fail, and no longer. Its
    election fails when a permission is missing. When it is shut down it tries to give up the
    lease, though the server does not answer. -/
theorem leads_for_fifteen_seconds :
    let failing : LeaseServer := { readFailure := some 500 }
    let patient := [Event.round {} 0 0, .round failing Elector.patience 0]
    let late := [Event.round {} 0 0, .round failing (Elector.patience + 1) 0]
    let e := (fresh "lease" "node-1").run patient
    e.leadership.leading = true ∧
      ((fresh "lease" "node-1").run late).leadership.leading = false ∧
      (e.happen (.round { readFailure := some 403 } 0 0)).leadership.failed = true ∧
      failing.calls.length < (e.happen (.shutdown failing)).server.calls.length := by
  intro failing patient late e
  have hevents : ∀ ev ∈ patient, ev.isFinal "lease" "node-1" = false := by decide
  obtain ⟨-, -, hleads, hfinal, hshutdown⟩ := leading_iff_ledFrom "lease" "node-1" hevents
  have hled : e.leadership.leading = true :=
    hleads.mpr ⟨0, [], (0, .ok .leading), [(Elector.patience, .error 500)], rfl, rfl,
      List.forall_mem_singleton.mpr ⟨500, rfl, rfl, by decide⟩⟩
  exact ⟨hled, by decide, (hfinal { readFailure := some 403 } 0 0 rfl []).2.2.1,
    (hshutdown failing).2.1.mpr hled⟩

end Election

end ScrapeDiscovery

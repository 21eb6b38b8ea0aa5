import ScrapeDiscovery.Proofs.Election.Contest
import ScrapeDiscovery.Proofs.Election.Transitions

/-!
# For how long electors lead

Others may take a lease over when it is sixteen seconds old, since it is held for
fifteen seconds and only whole seconds count. Its holder finds out that it cannot renew
it in its own rounds, which are five seconds apart, and gives up leading in the first
failed one that is more than fifteen seconds after the last renewal: the one after
twenty seconds. In the four seconds between the two electors can lead.

The invariant is about electors that lead. Each of them holds the lease, renewed at or
after its own last renewal, unless sixteen seconds have passed since; and its next round
is due at one of the four times up to twenty seconds after that renewal.

Results:
* `Lease.IsClaim.isExpired_iff`: when a lease has expired.
* `LeaseStore.attempt_cases`: what a write does to the lease.
* `LeaseStore.IsHeldBy.expired`: when somebody else may take a lease over.
* `Candidate.Timed.conclude`: the rounds of an elector.
-/

namespace ScrapeDiscovery

/-! ## Leases -/

namespace Lease

/-- The age of a lease, in microseconds, from which on it has expired. -/
def expiryAge : Nat := 16000000

/-- A lease that somebody has made, renewed or taken over at some time. -/
structure IsClaim (l : Lease) (id : String) (time : Int) : Prop where
  holder : l.holder = id
  duration : l.spec.bind (·.duration) = some standardDuration
  renewedAt : l.spec.bind (·.renewedAt) = some time

theorem isClaim_create (name id : String) (now : Int) : (create name id now).IsClaim id now :=
  ⟨rfl, rfl, rfl⟩

theorem isClaim_claimed (l : Lease) (id : String) (now : Int) (takeover : Bool) :
    (l.claimed id now takeover).IsClaim id now :=
  ⟨rfl, rfl, rfl⟩

/-- Such a lease expires when it has an age of more than fifteen whole seconds. -/
theorem IsClaim.isExpired_iff {l : Lease} {id : String} {renewedAt : Int}
    (h : l.IsClaim id renewedAt) (now : Int) :
    l.isExpired now = true ↔ renewedAt + expiryAge ≤ now := by
  simp only [isExpired, h.renewedAt, h.duration, Option.getD_some, decide_eq_true_eq,
    standardDuration, second, expiryAge]
  rcases Int.le_total renewedAt now with hle | hle
  · rw [Int.tdiv_eq_ediv_of_nonneg (by omega)]
    omega
  · -- a lease from the future has not expired
    have hneg : now - renewedAt = -(renewedAt - now) := by omega
    rw [hneg, Int.neg_tdiv, Int.tdiv_eq_ediv_of_nonneg (by omega)]
    omega

end Lease

/-- The lease that a write stores. -/
def LeaseCall.lease? : LeaseCall → Option Lease
  | .get => none
  | .create l => some l
  | .replace l => some l

namespace LeaseStore

/-- The lease is held by an elector and was renewed at some time or later. -/
def IsHeldBy (s : LeaseStore) (id : String) (since : Nat) : Prop :=
  ∃ l renewedAt, s.lease = some l ∧ l.IsClaim id renewedAt ∧ (since : Int) ≤ renewedAt

/-- An elector may take the lease, if there is one: it is its own, nobody's, or has expired. -/
def IsFree (s : LeaseStore) (id : String) (now : Int) : Prop :=
  ∀ l, s.lease = some l → l.holder = id ∨ l.holder = "" ∨ l.isExpired now = true

/-- A write of an elector that overwrites no lease of another one before it has expired. -/
def Admits (s : LeaseStore) (id : String) (now : Int) (seen : Nat) : LeaseCall → Prop
  | .get => False
  | .create _ => True
  | .replace _ => seen ≤ s.version ∧ (seen = s.version → s.IsFree id now)

variable {s : LeaseStore} {id id' : String} {now : Int} {seen since : Nat} {call : LeaseCall}

theorem write_cases (h : s.Admits id now seen call) :
    (s.write seen call).1 ≠ none ∧ (s.write seen call).2 = s ∨
      ∃ l, call.lease? = some l ∧ (s.write seen call).2 = s.put l ∧ s.IsFree id now := by
  cases call with
  | get => exact h.elim
  | create l =>
    rw [write]
    split
    · exact Or.inl ⟨Option.some_ne_none _, rfl⟩
    · next hnone =>
      refine Or.inr ⟨l, rfl, rfl, fun l' hl' => absurd ?_ hnone⟩
      rw [hl']
      rfl
  | replace l =>
    rw [write]
    split
    · exact Or.inl ⟨Option.some_ne_none _, rfl⟩
    · split
      · exact Or.inl ⟨Option.some_ne_none _, rfl⟩
      · next hseen => exact Or.inr ⟨l, rfl, rfl, h.2 (Decidable.not_not.mp hseen).symm⟩

/-- A write that may fail leaves the lease as it is, and then the writer is told so, or it stores
    the lease of the writer in the place of one that was free. -/
theorem attempt_cases (h : s.Admits id now seen call) (fault : Option WriteFault) :
    (s.attempt seen call fault).1 ≠ none ∧ (s.attempt seen call fault).2 = s ∨
      ∃ l, call.lease? = some l ∧ (s.attempt seen call fault).2 = s.put l ∧ s.IsFree id now := by
  cases fault with
  | none => exact write_cases h
  | some fault =>
    simp only [attempt]
    split
    · rcases write_cases h with ⟨-, hsame⟩ | hput
      · exact Or.inl ⟨Option.some_ne_none _, hsame⟩
      · exact Or.inr hput
    · exact Or.inl ⟨Option.some_ne_none _, rfl⟩

theorem Admits.put (h : s.Admits id now seen call) (l : Lease) :
    (s.put l).Admits id now seen call := by
  cases call with
  | get => exact h.elim
  | create _ => trivial
  | replace _ =>
    refine ⟨Nat.le_succ_of_le h.1, fun hseen => ?_⟩
    -- the version that was read is an old one now
    have hold : seen = s.version + 1 := hseen
    have := h.1
    omega

theorem isHeldBy_put {l : Lease} {clock : Nat} (hl : l.IsClaim id clock) (hsince : since ≤ clock) :
    (s.put l).IsHeldBy id since :=
  ⟨l, clock, rfl, hl, by omega⟩

theorem IsHeldBy.unique (h : s.IsHeldBy id since) {since' : Nat} (h' : s.IsHeldBy id' since') :
    id = id' := by
  obtain ⟨l, _, hl, hclaim, -⟩ := h
  obtain ⟨l', _, hl', hclaim', -⟩ := h'
  cases hl.symm.trans hl'
  exact hclaim.holder.symm.trans hclaim'.holder

/-- Somebody else's lease is free only when it has expired. -/
theorem IsHeldBy.expired (h : s.IsHeldBy id since) (hfree : s.IsFree id' now) (hne : id ≠ id')
    (hid : id ≠ "") : (since : Int) + Lease.expiryAge ≤ now := by
  obtain ⟨l, renewedAt, hl, hclaim, hsince⟩ := h
  rcases hfree l hl with hholder | hholder | hexpired
  · exact absurd (hclaim.holder.symm.trans hholder) hne
  · exact absurd (hclaim.holder.symm.trans hholder) hid
  · have hage := (hclaim.isExpired_iff now).mp hexpired
    omega

end LeaseStore

/-! ## Candidates -/

theorem Leadership.lead_eq {l : Leadership} (hd : l.daemon = true) (hf : l.failed = false)
    (leading : Bool) (leader : String) :
    (l.lead leading leader).daemon = true ∧ (l.lead leading leader).failed = false ∧
      (l.lead leading leader).elected = leading := by
  have effect := effect_call hd hf (.lead leading leader)
  have hfailed : ¬(l.call (.lead leading leader)).failed = true := by simp [effect.failed_iff]
  exact ⟨effect.daemon, Bool.eq_false_iff.mpr hfailed, effect.elected⟩

theorem Leadership.fail_eq {l : Leadership} (hd : l.daemon = true) (hf : l.failed = false) :
    l.fail.daemon = true ∧ l.fail.elected = false := by
  have effect := effect_call hd hf .fail
  exact ⟨effect.daemon, effect.elected⟩

/-- How long after its last renewal an elector gives up leading, in microseconds. -/
def Elector.tenure : Nat := 4 * roundInterval

namespace Candidate

/-- It is in the election and was the leader in its last round that did not fail. -/
def IsActive (k : Candidate) : Prop := k.elector.leading = true ∧ k.stage ≠ .gone

/-- What the rounds of an elector keep. -/
structure Timed (k : Candidate) (id : String) (clock : Nat) : Prop where
  identity : k.elector.identity = id
  daemon : k.leadership.daemon = true
  /-- Leadership says what the elector has found. -/
  told : k.stage ≠ .gone →
    k.leadership.failed = false ∧ k.leadership.elected = k.elector.leading
  retired : k.stage = .gone → k.leadership.elected = false
  clock_le : k.stage ≠ .gone → clock ≤ k.due
  writing : ∀ call seen, k.stage = .writing call seen → k.due = clock
  renewed : k.IsActive → k.elector.renewedAt ≤ clock ∧
    ∃ n, 1 ≤ n ∧ n ≤ 4 ∧ k.due = k.elector.renewedAt + n * Elector.roundInterval

/-- What it is about to write is fit to be written. -/
def Justified (k : Candidate) (s : LeaseStore) (id : String) (now : Int) : Prop :=
  match k.stage with
  | .writing call seen =>
    s.Admits id now seen call ∧ ∀ l, call.lease? = some l → l.IsClaim id now
  | .releasing call seen => s.Admits id now seen call
  | _ => True

variable {k : Candidate} {id : String} {clock : Nat} {s : LeaseStore}

theorem Timed.leading_iff (h : k.Timed id clock) : k.leadership.leading = true ↔ k.IsActive := by
  rw [Leadership.leading_eq_elected h.daemon]
  by_cases hstage : k.stage = .gone
  · rw [h.retired hstage]
    exact iff_of_false Bool.false_ne_true fun hactive => hactive.2 hstage
  · rw [(h.told hstage).2]
    exact ⟨fun hlead => ⟨hlead, hstage⟩, And.left⟩

/-- A candidate between two rounds. -/
theorem Timed.waiting {e : Elector} {l : Leadership} {due : Nat} (hid : e.identity = id)
    (hd : l.daemon = true) (hf : l.failed = false) (he : l.elected = e.leading)
    (hdue : clock ≤ due)
    (hrenewed : e.leading = true → e.renewedAt ≤ clock ∧
      ∃ n, 1 ≤ n ∧ n ≤ 4 ∧ due = e.renewedAt + n * Elector.roundInterval) :
    ({ elector := e, leadership := l, due } : Candidate).Timed id clock where
  identity := hid
  daemon := hd
  told := fun _ => ⟨hf, he⟩
  retired := by simp
  clock_le := fun _ => hdue
  writing := by simp
  renewed := fun hactive => hrenewed hactive.1

/-- A candidate for which the election is over. -/
theorem Timed.gone {e : Elector} {l : Leadership} {due : Nat} (hid : e.identity = id)
    (hd : l.daemon = true) (he : l.elected = false) :
    ({ elector := e, leadership := l, stage := .gone, due } : Candidate).Timed id clock where
  identity := hid
  daemon := hd
  told := fun hgone => absurd rfl hgone
  retired := fun _ => he
  clock_le := fun hgone => absurd rfl hgone
  writing := by simp
  renewed := fun hactive => absurd rfl hactive.2

theorem Timed.fresh (id : String) (due : Nat) : (Candidate.fresh id due).Timed id 0 :=
  .waiting rfl rfl rfl rfl (Nat.zero_le due) fun hlead => absurd hlead Bool.false_ne_true

/-- A round that ends when it is due. -/
theorem Timed.conclude (h : k.Timed id clock) (hstage : k.stage ≠ .gone) (hdue : k.due = clock)
    (result : Except FailureStatus RoundOutcome) : (k.conclude clock result).Timed id clock := by
  obtain ⟨hfailed, helected⟩ := h.told hstage
  have hlead : ∀ leading leader, _ := Leadership.lead_eq h.daemon hfailed
  have hnext : clock ≤ k.due + Elector.roundInterval := by omega
  cases result with
  | ok outcome =>
    cases outcome with
    | leading =>
      obtain ⟨hd, hf, he⟩ := hlead true k.elector.identity
      have hfirst : k.due + Elector.roundInterval = clock + 1 * Elector.roundInterval := by omega
      exact .waiting h.identity hd hf he hnext fun _ =>
        ⟨Nat.le_refl clock, 1, Nat.le_refl 1, by omega, hfirst⟩
    | following holder =>
      obtain ⟨hd, hf, he⟩ := hlead false holder
      exact .waiting h.identity hd hf he hnext fun hlead => absurd hlead Bool.false_ne_true
  | error status =>
    simp only [Candidate.conclude, Elector.conclude]
    split
    · obtain ⟨hd, he⟩ := Leadership.fail_eq h.daemon hfailed
      exact .gone h.identity hd he
    · split
      · obtain ⟨hd, hf, he⟩ := hlead false ""
        exact .waiting h.identity hd hf he hnext fun hlead => absurd hlead Bool.false_ne_true
      · next hpatient =>
        refine .waiting (e := k.elector) h.identity h.daemon hfailed helected hnext
          fun hleading => ?_
        -- the elector is still patient, so this was not its fourth round
        obtain ⟨hle, n, hpos, hn, hround⟩ := h.renewed ⟨hleading, hstage⟩
        have hinterval : Elector.roundInterval = 5000000 := rfl
        have hpatience : Elector.patience = 15000000 := rfl
        simp only [hleading, Bool.true_and, decide_eq_true_eq] at hpatient
        rw [hinterval] at hround ⊢
        exact ⟨hle, n + 1, by omega, by omega, by omega⟩

theorem Timed.retire (h : k.Timed id clock) (hstage : k.stage ≠ .gone) :
    k.retire.Timed id clock := by
  obtain ⟨hfailed, helected⟩ := h.told hstage
  simp only [Candidate.retire, Elector.retire]
  split
  · obtain ⟨hd, -, he⟩ := Leadership.lead_eq h.daemon hfailed false ""
    exact .gone h.identity hd he
  · next hnot => exact .gone h.identity h.daemon (helected.trans (Bool.eq_false_iff.mpr hnot))

/-- After a round an elector is active if it was told to lead, or if its round has failed and it is
    still patient. -/
theorem active_of_conclude {result : Except FailureStatus RoundOutcome} (hstage : k.stage ≠ .gone)
    (hactive : (k.conclude clock result).IsActive) :
    result = .ok .leading ∧ (k.conclude clock result).elector.renewedAt = clock ∨
      (∃ status, result = .error status) ∧ k.IsActive ∧
        (k.conclude clock result).elector.renewedAt = k.elector.renewedAt := by
  cases result with
  | ok outcome =>
    cases outcome with
    | leading => exact Or.inl ⟨rfl, rfl⟩
    | following holder => exact absurd hactive.1 Bool.false_ne_true
  | error status =>
    refine Or.inr ⟨⟨status, rfl⟩, ?_⟩
    revert hactive
    simp only [Candidate.conclude, Elector.conclude]
    split
    · exact fun hactive => absurd rfl hactive.2
    · split
      · exact fun hactive => absurd hactive.1 Bool.false_ne_true
      · exact fun hactive => ⟨⟨hactive.1, hstage⟩, rfl⟩

end Candidate

end ScrapeDiscovery

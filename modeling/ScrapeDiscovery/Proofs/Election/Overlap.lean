import ScrapeDiscovery.Proofs.Election.Tenure

/-!
# How long two electors can lead at the same time

In a contest an elector that leads holds the lease, or sixteen seconds have passed since
its last renewal. A lease that another elector holds is only overwritten when it has
expired, so of two electors that lead the later one has renewed the lease at least
sixteen seconds after the earlier one, and the earlier one gives up within four seconds
of that.

Results:
* `Candidate.Acts.read`, `Candidate.Acts.write`: what the calls of one elector do.
* `Orderly.act`: every timely action keeps the invariant.
* `overlap_of_two_leading`: how two electors can lead at the same time, and that three cannot.
-/

namespace ScrapeDiscovery

namespace Candidate

/-! ## What one elector does -/

/-- What a step of a candidate does to itself and to the store: it overwrites a lease only if that
    is free, and where it goes on leading it has kept its lease or has just renewed it. -/
structure Acts (k : Candidate) (s : LeaseStore) (id : String) (clock : Nat) (k' : Candidate)
    (s' : LeaseStore) : Prop where
  timed : k'.Timed id clock
  justified : k'.Justified s' id clock
  spares : s' = s ∨ ∃ l, s' = s.put l ∧ s.IsFree id clock
  leads : k'.IsActive →
    (k.IsActive ∧ k'.elector.renewedAt = k.elector.renewedAt ∧
        (s' = s ∨ s'.IsHeldBy id k.elector.renewedAt)) ∨
      k'.elector.renewedAt = clock ∧ s'.IsHeldBy id clock

variable {k : Candidate} {s : LeaseStore} {id : String} {clock : Nat}

theorem Acts.refl (h : k.Timed id clock) (hj : k.Justified s id clock) :
    k.Acts s id clock k s :=
  ⟨h, hj, Or.inl rfl, fun hactive => Or.inl ⟨hactive, rfl, Or.inl rfl⟩⟩

theorem justified_conclude (k : Candidate) (clock : Nat)
    (result : Except FailureStatus RoundOutcome) (s : LeaseStore) (id : String) (now : Int) :
    (k.conclude clock result).Justified s id now := by
  rcases k.stage_conclude clock result with h | h <;> simp only [Justified, h]

/-- A round that ends without a write. -/
theorem Acts.conclude (h : k.Timed id clock) (hstage : k.stage ≠ .gone) (hdue : k.due = clock)
    {result : Except FailureStatus RoundOutcome} (hresult : result ≠ .ok .leading)
    (s : LeaseStore) : k.Acts s id clock (k.conclude clock result) s := by
  refine ⟨h.conclude hstage hdue result, justified_conclude _ _ _ _ _ _, Or.inl rfl,
    fun hactive => ?_⟩
  rcases active_of_conclude hstage hactive with ⟨hleading, -⟩ | ⟨-, hactive, hsame⟩
  · exact absurd hleading hresult
  · exact Or.inl ⟨hactive, hsame, Or.inl rfl⟩

theorem Acts.retire (h : k.Timed id clock) (hstage : k.stage ≠ .gone) {s s' : LeaseStore}
    (hspares : s' = s ∨ ∃ l, s' = s.put l ∧ s.IsFree id clock) :
    k.Acts s id clock k.retire s' :=
  ⟨h.retire hstage, trivial, hspares, fun hactive => absurd rfl hactive.2⟩

/-- A change of what an elector is about to do. -/
theorem Acts.stage (h : k.Timed id clock) (hstage : k.stage ≠ .gone) {stage : CandidateStage}
    (hstage' : stage ≠ .gone) (hwriting : ∀ call seen, stage = .writing call seen → k.due = clock)
    (hj : ({ k with stage } : Candidate).Justified s id clock) :
    k.Acts s id clock { k with stage } s where
  timed :=
    { identity := h.identity
      daemon := h.daemon
      told := fun _ => h.told hstage
      retired := fun hgone => absurd hgone hstage'
      clock_le := fun _ => h.clock_le hstage
      writing := hwriting
      renewed := fun hactive => h.renewed ⟨hactive.1, hstage⟩ }
  justified := hj
  spares := Or.inl rfl
  leads := fun hactive => Or.inl ⟨⟨hactive.1, hstage⟩, rfl, Or.inl rfl⟩

/-! ## Reading -/

theorem read_eq_some {failure : Option FailureStatus} {l : Lease}
    (hread : s.read failure = .ok (some l)) : s.lease = some l := by
  cases failure with
  | none => exact Except.ok.inj hread
  | some status =>
    rw [LeaseStore.read] at hread
    split at hread
    · cases Except.ok.inj hread
    · cases hread

/-- What an elector decides to write is a claim, and it may be written as long as the lease is the
    one that was read. -/
theorem justified_decide {e : Elector} {name : String} {existing : Option Lease}
    (hread : ∀ l, existing = some l → s.lease = some l) {call : LeaseCall}
    (hdecide : e.decide name clock existing = .inr call) :
    s.Admits e.identity clock s.version call ∧
      ∀ l, call.lease? = some l → l.IsClaim e.identity clock := by
  cases existing with
  | none =>
    obtain rfl : LeaseCall.create (Lease.create name e.identity clock) = call :=
      Sum.inr.inj hdecide
    refine ⟨trivial, fun l hl => ?_⟩
    obtain rfl := Option.some.inj hl
    exact Lease.isClaim_create _ _ _
  | some l =>
    cases hplan : ElectionPlan.of e.identity clock (some l) with
    | create => exact absurd hplan (ElectionPlan.of_some_ne_create _ _ l)
    | follow holder =>
      simp only [Elector.decide, hplan] at hdecide
      cases hdecide
    | claim takeover =>
      simp only [Elector.decide, hplan] at hdecide
      obtain rfl : LeaseCall.replace (l.claimed e.identity clock takeover) = call :=
        Sum.inr.inj hdecide
      refine ⟨⟨Nat.le_refl _, fun _ l' hl' => ?_⟩, fun l' hl' => ?_⟩
      · obtain rfl := Option.some.inj ((hread l rfl).symm.trans hl')
        simp only [ElectionPlan.of] at hplan
        split at hplan
        · next hown => exact Or.inl hown
        · split at hplan
          · next hfree => exact Or.inr (by simpa using hfree)
          · cases hplan
      · obtain rfl := Option.some.inj hl'
        exact Lease.isClaim_claimed _ _ _ _

theorem decide_ne_leading {e : Elector} {name : String} {now : Int} {existing : Option Lease}
    {outcome : RoundOutcome} (hdecide : e.decide name now existing = .inl outcome) :
    outcome ≠ .leading := by
  unfold Elector.decide at hdecide
  split at hdecide
  · obtain rfl := Sum.inl.inj hdecide
    simp
  · cases hdecide
  · cases hdecide

theorem Acts.read (h : k.Timed id clock) (hj : k.Justified s id clock)
    (hdue : k.stage = .waiting → k.due = clock) (name : String)
    (failure : Option FailureStatus) :
    k.Acts s id clock (k.read name s clock failure) s := by
  have hid := h.identity
  cases hstage : k.stage with
  | waiting =>
    have hgone : k.stage ≠ .gone := by simp [hstage]
    cases hread : s.read failure with
    | error status =>
      simp only [Candidate.read, hstage, hread]
      have hne : (.error status : Except FailureStatus RoundOutcome) ≠ .ok .leading := by simp
      exact .conclude h hgone (hdue hstage) hne s
    | ok existing =>
      simp only [Candidate.read, hstage, hread]
      split
      · next hdecide =>
        have hne := decide_ne_leading hdecide
        exact .conclude h hgone (hdue hstage) (fun he => hne (Except.ok.inj he)) s
      · next hdecide =>
        have hfit := justified_decide (s := s)
          (fun l hl => read_eq_some (hread.trans (congrArg Except.ok hl))) hdecide
        rw [hid] at hfit
        exact .stage h hgone (by simp) (fun _ _ _ => hdue hstage) hfit
  | leaving =>
    have hgone : k.stage ≠ .gone := by simp [hstage]
    cases hread : s.read failure with
    | error status =>
      simp only [Candidate.read, hstage, hread]
      exact .retire h hgone (Or.inl rfl)
    | ok existing =>
      cases existing with
      | none =>
        simp only [Candidate.read, hstage, hread]
        exact .retire h hgone (Or.inl rfl)
      | some l =>
        simp only [Candidate.read, hstage, hread]
        split
        · next hown =>
          refine .stage h hgone (by simp) (by simp)
            ⟨Nat.le_refl _, fun _ l' hl' => Or.inl ?_⟩
          obtain rfl := Option.some.inj ((read_eq_some hread).symm.trans hl')
          rw [Lease.holder, hown, hid]
          rfl
        · exact .retire h hgone (Or.inl rfl)
  | writing call seen =>
    simp only [Candidate.read, hstage]
    exact .refl h hj
  | releasing call seen =>
    simp only [Candidate.read, hstage]
    exact .refl h hj
  | gone =>
    simp only [Candidate.read, hstage]
    exact .refl h hj

/-! ## Writing -/

theorem ofWrite_ne_leading {failure : Option FailureStatus} (hfailure : failure ≠ none) :
    RoundOutcome.ofWrite failure ≠ .ok .leading := by
  cases failure with
  | none => exact absurd rfl hfailure
  | some status =>
    simp only [RoundOutcome.ofWrite]
    split <;> simp

theorem Acts.write (h : k.Timed id clock) (hj : k.Justified s id clock)
    (fault : Option WriteFault) :
    k.Acts s id clock (k.write s clock fault).1 (k.write s clock fault).2 := by
  cases hstage : k.stage with
  | writing call seen =>
    have hgone : k.stage ≠ .gone := by simp [hstage]
    have hdue := h.writing call seen hstage
    have hfit : s.Admits id clock seen call ∧
        ∀ l, call.lease? = some l → l.IsClaim id clock := by
      simpa only [Justified, hstage] using hj
    simp only [Candidate.write, hstage]
    rcases LeaseStore.attempt_cases hfit.1 fault with ⟨hfailure, hsame⟩ | ⟨l, hl, hput, hfree⟩
    · rw [hsame]
      exact .conclude h hgone hdue (ofWrite_ne_leading hfailure) s
    · -- the lease that is stored now is the elector's own, renewed at this moment
      have hclaim := hfit.2 l hl
      rw [hput]
      refine ⟨h.conclude hgone hdue _, justified_conclude _ _ _ _ _ _, Or.inr ⟨l, rfl, hfree⟩,
        fun hactive => ?_⟩
      rcases active_of_conclude hgone hactive with ⟨-, hrenewed⟩ | ⟨-, hactive, hsame⟩
      · exact Or.inr ⟨hrenewed, LeaseStore.isHeldBy_put hclaim (Nat.le_refl clock)⟩
      · exact Or.inl ⟨hactive, hsame,
          Or.inr (LeaseStore.isHeldBy_put hclaim (h.renewed hactive).1)⟩
  | releasing call seen =>
    have hgone : k.stage ≠ .gone := by simp [hstage]
    have hfit : s.Admits id clock seen call := by
      simpa only [Justified, hstage] using hj
    simp only [Candidate.write, hstage]
    refine .retire h hgone ((LeaseStore.attempt_cases hfit fault).imp And.right ?_)
    rintro ⟨l, -, hput, hfree⟩
    exact ⟨l, hput, hfree⟩
  | waiting =>
    simp only [Candidate.write, hstage]
    exact .refl h hj
  | leaving =>
    simp only [Candidate.write, hstage]
    exact .refl h hj
  | gone =>
    simp only [Candidate.write, hstage]
    exact .refl h hj

theorem Acts.shutdown (h : k.Timed id clock) (hj : k.Justified s id clock) :
    k.Acts s id clock k.shutdown s := by
  unfold Candidate.shutdown
  split
  · exact .refl h hj
  · next hwaiting =>
    have hgone : k.stage ≠ .gone := by simp [Decidable.not_not.mp hwaiting]
    split
    · exact .stage h hgone (by simp) (by simp) trivial
    · exact .retire h hgone (Or.inl rfl)

end Candidate

namespace Contest

/-! ## The invariant -/

/-- What every state of a punctual contest satisfies. -/
structure Orderly (c : Contest) : Prop where
  named : ∀ id k, c.candidates.get? id = some k → id ≠ ""
  timed : ∀ id k, c.candidates.get? id = some k → k.Timed id c.clock
  justified : ∀ id k, c.candidates.get? id = some k → k.Justified c.store id c.clock
  /-- An elector that leads holds the lease, or its lease has expired. -/
  covered : ∀ id k, c.candidates.get? id = some k → k.IsActive →
    c.store.IsHeldBy id k.elector.renewedAt ∨
      k.elector.renewedAt + Lease.expiryAge ≤ c.clock
  /-- Of two electors that lead one has taken the lease over from the other. -/
  apart : ∀ i j p q, c.candidates.get? i = some p → c.candidates.get? j = some q → i ≠ j →
    p.IsActive → q.IsActive →
      p.elector.renewedAt + Lease.expiryAge ≤ q.elector.renewedAt ∨
        q.elector.renewedAt + Lease.expiryAge ≤ p.elector.renewedAt

variable {c : Contest}

theorem orderly_start (leaseName : String) (lease : Option Lease) {phases : KeyMap Nat}
    (hnamed : phases.get? "" = none) : (start leaseName lease phases).Orderly := by
  have hfresh : ∀ id k, (start leaseName lease phases).candidates.get? id = some k →
      ∃ due, phases.get? id = some due ∧ Candidate.fresh id due = k := by
    intro id k hk
    rw [get?_start] at hk
    exact Option.map_eq_some_iff.mp hk
  refine ⟨?_, ?_, ?_, ?_, ?_⟩
  · rintro id k hk rfl
    obtain ⟨due, hdue, -⟩ := hfresh "" k hk
    rw [hnamed] at hdue
    cases hdue
  · intro id k hk
    obtain ⟨due, -, rfl⟩ := hfresh id k hk
    exact .fresh id due
  · intro id k hk
    obtain ⟨due, -, rfl⟩ := hfresh id k hk
    trivial
  · intro id k hk hactive
    obtain ⟨due, -, rfl⟩ := hfresh id k hk
    exact absurd hactive.1 Bool.false_ne_true
  · intro i j p q hp _ _ hactive
    obtain ⟨due, -, rfl⟩ := hfresh i p hp
    exact absurd hactive.1 Bool.false_ne_true

/-- An elector that stands by keeps its lease, unless it has expired. -/
theorem Orderly.covered_of_spares (h : c.Orderly) {id j : String} (hne : j ≠ id) {q : Candidate}
    (hq : c.candidates.get? j = some q) (hactive : q.IsActive) {s' : LeaseStore}
    (hspares : s' = c.store ∨ ∃ l, s' = c.store.put l ∧ c.store.IsFree id c.clock) :
    s'.IsHeldBy j q.elector.renewedAt ∨ q.elector.renewedAt + Lease.expiryAge ≤ c.clock := by
  rcases hspares with rfl | ⟨l, rfl, hfree⟩
  · exact h.covered j q hq hactive
  · rcases h.covered j q hq hactive with hheld | hexpired
    · have hexpired := hheld.expired hfree hne (h.named j q hq)
      exact Or.inr (by exact_mod_cast hexpired)
    · exact Or.inr hexpired

theorem justified_of_spares {s s' : LeaseStore} {id j : String} {now : Int} {q : Candidate}
    (hq : q.Justified s j now) (hspares : s' = s ∨ ∃ l, s' = s.put l ∧ s.IsFree id now) :
    q.Justified s' j now := by
  rcases hspares with rfl | ⟨l, rfl, -⟩
  · exact hq
  · unfold Candidate.Justified at hq ⊢
    split at hq
    · exact ⟨hq.1.put l, hq.2⟩
    · exact hq.put l
    · trivial

/-- A step of one candidate keeps the invariant. -/
theorem Orderly.update (h : c.Orderly) {id : String} {f : Candidate → Candidate × LeaseStore}
    (hf : ∀ k, c.candidates.get? id = some k → k.Acts c.store id c.clock (f k).1 (f k).2) :
    (c.update id f).Orderly := by
  cases hk : c.candidates.get? id with
  | none => rwa [Contest.update, hk]
  | some k =>
    have hacts := hf k hk
    have hclock := c.clock_update id f
    have hstore : (c.update id f).store = (f k).2 := store_update hk f
    -- who has acted is `(f k).1` now, and all the others are as they were
    have hcases : ∀ j q, (c.update id f).candidates.get? j = some q →
        j = id ∧ q = (f k).1 ∨ j ≠ id ∧ c.candidates.get? j = some q := by
      intro j q hq
      refine (get?_update hq).imp_left ?_
      rintro ⟨rfl, k', hk', rfl⟩
      obtain rfl := Option.some.inj (hk.symm.trans hk')
      exact ⟨rfl, rfl⟩
    have hcovered : ∀ j q, c.candidates.get? j = some q → j ≠ id → q.IsActive →
        (f k).2.IsHeldBy j q.elector.renewedAt ∨
          q.elector.renewedAt + Lease.expiryAge ≤ c.clock :=
      fun j q hq hne hactive => h.covered_of_spares hne hq hactive hacts.spares
    -- somebody else who leads has lost the lease to who has just renewed it
    have hlost : ∀ j q, c.candidates.get? j = some q → j ≠ id → q.IsActive →
        (f k).1.IsActive →
          q.elector.renewedAt + Lease.expiryAge ≤ (f k).1.elector.renewedAt ∨
            (f k).1.elector.renewedAt + Lease.expiryAge ≤ q.elector.renewedAt := by
      intro j q hq hne hactive hleads
      rcases hacts.leads hleads with ⟨hbefore, hsame, -⟩ | ⟨hrenewed, hheld⟩
      · rw [hsame]
        exact h.apart j id q k hq hk hne hactive hbefore
      · rw [hrenewed]
        exact Or.inl ((hcovered j q hq hne hactive).resolve_left fun h' => hne (h'.unique hheld))
    refine ⟨fun j q hq => ?_, fun j q hq => ?_, fun j q hq => ?_, fun j q hq hactive => ?_,
      fun i j p q hp hq hne hpactive hqactive => ?_⟩
    · rcases hcases j q hq with ⟨rfl, -⟩ | ⟨-, hq⟩
      · exact h.named j k hk
      · exact h.named j q hq
    · rw [hclock]
      rcases hcases j q hq with ⟨rfl, rfl⟩ | ⟨-, hq⟩
      · exact hacts.timed
      · exact h.timed j q hq
    · rw [hclock, hstore]
      rcases hcases j q hq with ⟨rfl, rfl⟩ | ⟨-, hq⟩
      · exact hacts.justified
      · exact justified_of_spares (h.justified j q hq) hacts.spares
    · rw [hclock, hstore]
      rcases hcases j q hq with ⟨rfl, rfl⟩ | ⟨hne, hq⟩
      · rcases hacts.leads hactive with ⟨hbefore, hsame, hstored | hheld⟩ | ⟨hrenewed, hheld⟩
        · rw [hsame, hstored]
          exact h.covered j k hk hbefore
        · rw [hsame]
          exact Or.inl hheld
        · rw [hrenewed]
          exact Or.inl hheld
      · exact hcovered j q hq hne hactive
    · rcases hcases i p hp with ⟨rfl, rfl⟩ | ⟨hi, hp'⟩
      · rcases hcases j q hq with ⟨rfl, -⟩ | ⟨hj, hq'⟩
        · exact absurd rfl hne
        · exact (hlost j q hq' hj hqactive hpactive).symm
      · rcases hcases j q hq with ⟨rfl, rfl⟩ | ⟨-, hq'⟩
        · exact hlost i p hp' hi hpactive hqactive
        · exact h.apart i j p q hp' hq' hne hpactive hqactive

/-- Time passes while nobody is in the middle of a round and no round is due. -/
theorem Orderly.wait (h : c.Orderly) {duration : Nat} (ht : c.IsTimely (.wait duration)) :
    (c.act (.wait duration)).Orderly := by
  have hidle : ∀ id k, c.candidates.get? id = some k → k.isIdle = true ∧
      (k.stage = .waiting → c.clock + duration ≤ k.due) := fun id k hk =>
    ht k (KeyMap.mem_values_iff.mpr ⟨id, hk⟩)
  have hstage : ∀ id k, c.candidates.get? id = some k →
      k.stage = .waiting ∨ k.stage = .gone := by
    intro id k hk
    simpa [Candidate.isIdle] using (hidle id k hk).1
  refine ⟨h.named, fun id k hk => ?_, fun id k hk => ?_, fun id k hk hactive => ?_, h.apart⟩
  · have hk' := h.timed id k hk
    refine ⟨hk'.identity, hk'.daemon, hk'.told, hk'.retired, fun hgone => ?_,
      fun call seen hwriting => ?_, fun hactive => ?_⟩
    · exact (hidle id k hk).2 ((hstage id k hk).resolve_right hgone)
    · rcases hstage id k hk with hwaiting | hgone
      · rw [hwaiting] at hwriting
        cases hwriting
      · rw [hgone] at hwriting
        cases hwriting
    · have hrenewed := hk'.renewed hactive
      exact ⟨Nat.le_add_right_of_le hrenewed.1, hrenewed.2⟩
  · rcases hstage id k hk with hwaiting | hgone
    · simp only [Candidate.Justified, hwaiting]
    · simp only [Candidate.Justified, hgone]
  · exact (h.covered id k hk hactive).imp_right Nat.le_add_right_of_le

theorem Orderly.act (h : c.Orderly) {a : ContestAction} (ht : c.IsTimely a) :
    (c.act a).Orderly := by
  cases a with
  | wait duration => exact h.wait ht
  | read id failure =>
    exact h.update fun k hk =>
      .read (h.timed id k hk) (h.justified id k hk) (ht k hk) c.leaseName failure
  | write id fault =>
    exact h.update fun k hk => .write (h.timed id k hk) (h.justified id k hk) fault
  | shutdown id => exact h.update fun k hk => .shutdown (h.timed id k hk) (h.justified id k hk)

theorem Orderly.run (h : c.Orderly) {actions : List ContestAction}
    (hp : c.IsPunctual actions) : (c.run actions).Orderly := by
  induction actions generalizing c with
  | nil => exact h
  | cons a as ih => exact ih (h.act hp.1) hp.2

/-! ## Leading at the same time -/

/-- One elector has lost the lease to another one and does not know yet: the other one has taken it
    over no earlier than sixteen seconds after the last renewal, and the next round is due twenty
    seconds after that. -/
def Overtaken (c : Contest) (loser winner : String) : Prop :=
  ∃ p q, c.candidates.get? loser = some p ∧ c.candidates.get? winner = some q ∧
    p.elector.renewedAt + Lease.expiryAge ≤ q.elector.renewedAt ∧
    q.elector.renewedAt ≤ c.clock ∧ c.clock ≤ p.elector.renewedAt + Elector.tenure ∧
    p.due = p.elector.renewedAt + Elector.tenure ∧
    c.store.IsHeldBy winner q.elector.renewedAt

theorem Orderly.overtaken (h : c.Orderly) {i j : String} {p q : Candidate}
    (hp : c.candidates.get? i = some p) (hq : c.candidates.get? j = some q) (hpa : p.IsActive)
    (hqa : q.IsActive)
    (hapart : p.elector.renewedAt + Lease.expiryAge ≤ q.elector.renewedAt) :
    c.Overtaken i j := by
  obtain ⟨-, n, -, hn, hdue⟩ := (h.timed i p hp).renewed hpa
  obtain ⟨hq', -⟩ := (h.timed j q hq).renewed hqa
  have hclock := (h.timed i p hp).clock_le hpa.2
  have hage : Lease.expiryAge = 16000000 := rfl
  have hinterval : Elector.roundInterval = 5000000 := rfl
  have htenure : Elector.tenure = 20000000 := rfl
  rw [hinterval] at hdue
  refine ⟨p, q, hp, hq, hapart, hq', by omega, by omega, ?_⟩
  exact (h.covered j q hq hqa).resolve_right (by omega)

theorem Orderly.active_of_leads (h : c.Orderly) {id : String} (hl : c.leads id = true) :
    ∃ k, c.candidates.get? id = some k ∧ k.IsActive := by
  obtain ⟨k, hk, hleading⟩ := (Option.any_eq_true _ _).mp hl
  exact ⟨k, hk, (h.timed id k hk).leading_iff.mp hleading⟩

/-- In every punctual contest, whichever calls fail: when two electors lead at the same time, one of
    them has lost the lease to the other one after sixteen seconds without a renewal, and will find
    out after twenty. Three never lead at the same time. -/
theorem overlap_of_two_leading (leaseName : String) (lease : Option Lease) (phases : KeyMap Nat)
    (hnamed : phases.get? "" = none) (actions : List ContestAction)
    (hpunctual : (start leaseName lease phases).IsPunctual actions) :
    let c := (start leaseName lease phases).run actions
    (∀ i j, i ≠ j → c.leads i = true → c.leads j = true → c.Overtaken i j ∨ c.Overtaken j i) ∧
      ∀ i j k, i ≠ j → j ≠ k → i ≠ k →
        ¬(c.leads i = true ∧ c.leads j = true ∧ c.leads k = true) := by
  intro c
  have h : c.Orderly := (orderly_start leaseName lease hnamed).run hpunctual
  have hage : Lease.expiryAge = 16000000 := rfl
  have hinterval : Elector.roundInterval = 5000000 := rfl
  constructor
  · intro i j hne hi hj
    obtain ⟨p, hp, hpa⟩ := h.active_of_leads hi
    obtain ⟨q, hq, hqa⟩ := h.active_of_leads hj
    exact (h.apart i j p q hp hq hne hpa hqa).imp (h.overtaken hp hq hpa hqa)
      (h.overtaken hq hp hqa hpa)
  · rintro i j k hij hjk hik ⟨hi, hj, hk⟩
    obtain ⟨p, hp, hpa⟩ := h.active_of_leads hi
    obtain ⟨q, hq, hqa⟩ := h.active_of_leads hj
    obtain ⟨r, hr, hra⟩ := h.active_of_leads hk
    -- three renewals sixteen seconds apart do not fit into twenty seconds
    have hpq := h.apart i j p q hp hq hij hpa hqa
    have hqr := h.apart j k q r hq hr hjk hqa hra
    have hpr := h.apart i k p r hp hr hik hpa hra
    have hlast : ∀ id k, c.candidates.get? id = some k → k.IsActive →
        k.elector.renewedAt ≤ c.clock ∧ c.clock ≤ k.elector.renewedAt + 20000000 := by
      intro id k hk ha
      obtain ⟨hle, n, -, hn, hdue⟩ := (h.timed id k hk).renewed ha
      have hclock := (h.timed id k hk).clock_le ha.2
      rw [hinterval] at hdue
      omega
    have hp' := hlast i p hp hpa
    have hq' := hlast j q hq hqa
    have hr' := hlast k r hr hra
    omega

/-- Elector `a` makes the lease and then fails to renew it three times, for the last time after
    exactly fifteen seconds, when it goes on leading. Elector `b` takes the lease over a second
    later, and both lead. -/
theorem exists_two_leading :
    let c := start "leader" none (.ofList [("a", 0), ("b", 1000000)])
    let actions : List ContestAction :=
      [.read "a" none, .write "a" none, .wait 1000000, .read "b" none,
        .wait 4000000, .read "a" (some 500), .wait 1000000, .read "b" none,
        .wait 4000000, .read "a" (some 500), .wait 1000000, .read "b" none,
        .wait 4000000, .read "a" (some 500), .wait 1000000, .read "b" none, .write "b" none]
    c.IsPunctual actions ∧ (c.run actions).leads "a" = true ∧ (c.run actions).leads "b" = true := by
  decide +kernel

/-- In that contest `a` has lost the lease to `b`. -/
theorem overtaken_of_missed_renewals :
    let c := start "leader" none (.ofList [("a", 0), ("b", 1000000)])
    let actions : List ContestAction :=
      [.read "a" none, .write "a" none, .wait 1000000, .read "b" none,
        .wait 4000000, .read "a" (some 500), .wait 1000000, .read "b" none,
        .wait 4000000, .read "a" (some 500), .wait 1000000, .read "b" none,
        .wait 4000000, .read "a" (some 500), .wait 1000000, .read "b" none, .write "b" none]
    (c.run actions).Overtaken "a" "b" ∨ (c.run actions).Overtaken "b" "a" := by
  intro c actions
  have hrun : c.IsPunctual actions ∧ (c.run actions).leads "a" = true ∧
      (c.run actions).leads "b" = true := by
    decide +kernel
  have htwo := overlap_of_two_leading "leader" none (.ofList [("a", 0), ("b", 1000000)])
    (by decide +kernel) actions hrun.1
  exact htwo.1 "a" "b" (by decide) hrun.2.1 hrun.2.2

end Contest

end ScrapeDiscovery

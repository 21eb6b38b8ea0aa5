import ScrapeDiscovery.Proofs.Election.Overlap
import ScrapeDiscovery.Proofs.Election.Rivalry

/-!
# What electors do to a lease that they share

Every write of an elector is built from something that it has read before, while others
may have renewed the lease, taken it over or given it up in between. The server refuses a
write whose writer has not read the present version, so a write that is carried out has
been decided on for the lease that it overwrites. What was read as expired still is, for
the clock does not go back. Only its own rounds make an elector the holder of the lease,
and they come one after the other, so a lease that it renews was not acquired after the
round began.

The invariant has a part about the lease, whose times are in order, and a part about each
elector: what it is about to write suits the lease, as long as that is the version that
the elector has read.

Results:
* `Lease.isExpired_mono`: what has expired stays expired.
* `LeaseStore.Awaits.attempt`: what is stored suits the lease that it overwrites.
* `RivalStage.Steps.get`, `RivalStage.Steps.decide`, `RivalStage.Steps.write`: the calls
  of one elector.
* `Rivalry.Kept.act`, `Rivalry.kept_run`: every action keeps the invariant.
* `Rivalry.custody_of_run`: what becomes of the lease in any run.
-/

namespace ScrapeDiscovery

/-! ## Leases -/

namespace Lease

/-- How often the holder has changed. -/
def transitions (l : Lease) : Int := (l.spec.bind (·.transitions)).getD 0

/-- The largest number that a counter of 32 bits reaches. -/
def maxCount : Int := 2147483647

theorem nextCount_bounds (n : Int) : -maxCount - 1 ≤ nextCount n ∧ nextCount n ≤ maxCount := by
  have hle : -2147483648 ≤ nextCount n := Int.le_bmod (by decide)
  have hlt : nextCount n < 2147483648 := Int.bmod_lt (by decide)
  unfold maxCount
  omega

theorem nextCount_of_lt {n : Int} (hle : -maxCount - 1 ≤ n) (hlt : n < maxCount) :
    nextCount n = n + 1 := by
  unfold maxCount at hle hlt
  exact Int.bmod_eq_of_le (by omega) (by omega)

/-- What has expired stays expired. -/
theorem isExpired_mono {l : Lease} {now later : Int} (hle : now ≤ later)
    (h : l.isExpired now = true) : l.isExpired later = true := by
  unfold isExpired at h ⊢
  split
  · rfl
  · next renewedAt hrenewed =>
    simp only [hrenewed, decide_eq_true_eq] at h ⊢
    have hage : (now - renewedAt).tdiv second ≤ (later - renewedAt).tdiv second :=
      Int.tdiv_le_tdiv (by decide) (by omega)
    omega

/-- Giving up a lease changes nothing but its holder. -/
theorem bind_released {α : Type} (l : Lease) {f : LeaseSpec → Option α}
    (hf : ∀ s, f { s with holder := none } = f s) : l.released.spec.bind f = l.spec.bind f := by
  cases h : l.spec with
  | none => simp only [released, h, Option.map_none]
  | some s => simp only [released, h, Option.map_some, Option.bind_some, hf]

theorem transitions_released (l : Lease) : l.released.transitions = l.transitions := by
  rw [transitions, bind_released l fun _ => rfl, transitions]

/-- The times of a lease are in order and have come, and its counter has 32 bits. -/
structure IsKept (l : Lease) (clock : Int) : Prop where
  dated : ∃ acquiredAt renewedAt, l.spec.bind (·.acquiredAt) = some acquiredAt ∧
    l.spec.bind (·.renewedAt) = some renewedAt ∧ acquiredAt ≤ renewedAt ∧ renewedAt ≤ clock
  counted : -maxCount - 1 ≤ l.transitions ∧ l.transitions ≤ maxCount

theorem IsKept.mono {l : Lease} {clock later : Int} (h : l.IsKept clock) (hle : clock ≤ later) :
    l.IsKept later := by
  obtain ⟨acquiredAt, renewedAt, ha, hr, hdated, hpast⟩ := h.dated
  exact ⟨⟨acquiredAt, renewedAt, ha, hr, hdated, Int.le_trans hpast hle⟩, h.counted⟩

/-! ## What may take the place of a lease -/

/-- What a round of an elector may store in the place of a lease, if it began at the time of
    the write or before. -/
inductive Claims (id : String) (clock : Int) : Option Lease → Lease → Prop where
  /-- There is no lease. -/
  | create (name : String) {now : Int} (hnow : now ≤ clock) :
    Claims id clock none (Lease.create name id now)
  /-- The elector holds the lease, and did not acquire it after the round began. -/
  | renew {l : Lease} {now : Int} (hnow : now ≤ clock) (hown : l.holder = id)
      (hsince : ∀ acquiredAt, l.spec.bind (·.acquiredAt) = some acquiredAt → acquiredAt ≤ now) :
    Claims id clock (some l) (l.claimed id now false)
  /-- Nobody holds the lease, or it has expired. -/
  | takeOver {l : Lease} {now : Int} (hnow : now ≤ clock) (hother : l.holder ≠ id)
      (hfree : l.holder = "" ∨ l.isExpired clock = true) :
    Claims id clock (some l) (l.claimed id now true)

/-- What an elector may store that gives a lease up: it holds the lease. -/
def Clears (id : String) (old : Option Lease) (l : Lease) : Prop :=
  ∃ prior, old = some prior ∧ prior.holder = id ∧ l = prior.released

variable {id : String} {clock later : Int} {old : Option Lease} {l : Lease}

theorem Claims.mono (h : Claims id clock old l) (hle : clock ≤ later) :
    Claims id later old l := by
  cases h with
  | create name hnow => exact .create name (Int.le_trans hnow hle)
  | renew hnow hown hsince => exact .renew (Int.le_trans hnow hle) hown hsince
  | takeOver hnow hother hfree =>
    exact .takeOver (Int.le_trans hnow hle) hother (hfree.imp_right (isExpired_mono hle))

theorem Claims.holder (h : Claims id clock old l) : l.holder = id := by
  cases h with
  | create _ _ => rfl
  | renew _ _ _ => rfl
  | takeOver _ _ _ => rfl

theorem Clears.holder (h : Clears id old l) : l.holder = "" := by
  obtain ⟨prior, -, -, rfl⟩ := h
  exact holder_released prior

/-- A round overwrites the lease of somebody else only if that is free. -/
theorem Claims.free {prior : Lease} (h : Claims id clock (some prior) l)
    (hother : prior.holder ≠ id) : prior.holder = "" ∨ prior.isExpired clock = true := by
  cases h with
  | renew _ hown _ => exact absurd hown hother
  | takeOver _ _ hfree => exact hfree

theorem Claims.isKept (h : Claims id clock old l) (hold : ∀ l, old = some l → l.IsKept clock) :
    l.IsKept clock := by
  cases h with
  | @create name now hnow =>
    have hcount : -maxCount - 1 ≤ (0 : Int) ∧ (0 : Int) ≤ maxCount := by decide
    exact ⟨⟨now, now, rfl, rfl, Int.le_refl now, hnow⟩, hcount⟩
  | @renew prior now hnow _ hsince =>
    obtain ⟨acquiredAt, -, hacquired, -⟩ := (hold prior rfl).dated
    exact ⟨⟨acquiredAt, now, hacquired, rfl, hsince acquiredAt hacquired, hnow⟩,
      (hold prior rfl).counted⟩
  | @takeOver prior now hnow _ _ =>
    exact ⟨⟨now, now, rfl, rfl, Int.le_refl now, hnow⟩, nextCount_bounds prior.transitions⟩

theorem Clears.isKept (h : Clears id old l) (hold : ∀ l, old = some l → l.IsKept clock) :
    l.IsKept clock := by
  obtain ⟨prior, hprior, -, rfl⟩ := h
  obtain ⟨acquiredAt, renewedAt, ha, hr, horder⟩ := (hold prior hprior).dated
  refine ⟨⟨acquiredAt, renewedAt, ?_, ?_, horder⟩, ?_⟩
  · rw [bind_released prior fun _ => rfl, ha]
  · rw [bind_released prior fun _ => rfl, hr]
  · rw [transitions_released]
    exact (hold prior hprior).counted

/-- A lease that a round makes has no transitions yet. -/
theorem Claims.transitions_of_none (h : Claims id clock none l) : l.transitions = 0 := by
  cases h with
  | create _ _ => rfl

/-- A round counts a transition if it makes somebody else the holder. -/
theorem Claims.transitions_eq {prior : Lease} (h : Claims id clock (some prior) l)
    (hprior : prior.IsKept clock) (hlt : prior.transitions < maxCount) :
    l.transitions = prior.transitions + if l.holder = id ∧ prior.holder ≠ id then 1 else 0 := by
  have hholder := h.holder
  cases h with
  | renew _ hown _ =>
    rw [if_neg fun hne => hne.2 hown, Int.add_zero]
    rfl
  | takeOver _ hother _ =>
    rw [if_pos ⟨hholder, hother⟩, ← nextCount_of_lt hprior.counted.1 hlt]
    rfl

end Lease

/-! ## The server -/

namespace LeaseStore

/-- A write suits the lease: what it stores may take the place of the lease, as long as that is the
    version that the writer has read. -/
def Awaits (s : LeaseStore) (suits : Option Lease → Lease → Prop) (seen : Nat) : LeaseCall → Prop
  | .get => True
  | .create l => suits none l
  | .replace l => seen ≤ s.version ∧ (seen = s.version → suits s.lease l)

/-- The lease, if an elector holds it, was not acquired after some time. -/
def IsAcquiredBy (s : LeaseStore) (id : String) (time : Int) : Prop :=
  ∀ l acquiredAt, s.lease = some l → l.holder = id →
    l.spec.bind (·.acquiredAt) = some acquiredAt → acquiredAt ≤ time

variable {s : LeaseStore} {suits suits' : Option Lease → Lease → Prop} {seen : Nat}
  {call : LeaseCall}

theorem Awaits.imp (h : s.Awaits suits seen call) (himp : ∀ old l, suits old l → suits' old l) :
    s.Awaits suits' seen call := by
  cases call with
  | get => trivial
  | create l => exact himp none l h
  | replace l => exact ⟨h.1, fun hseen => himp s.lease l (h.2 hseen)⟩

/-- What somebody has read before a write is an old version after it. -/
theorem ne_version_put (h : seen ≤ s.version) (l : Lease) : seen ≠ (s.put l).version :=
  Nat.ne_of_lt (Nat.lt_succ_of_le h)

theorem Awaits.put (h : s.Awaits suits seen call) (l : Lease) :
    (s.put l).Awaits suits seen call := by
  cases call with
  | get => trivial
  | create _ => exact h
  | replace _ =>
    exact ⟨Nat.le_succ_of_le h.1, fun hseen => absurd hseen (ne_version_put h.1 l)⟩

theorem Awaits.write (h : s.Awaits suits seen call) :
    (s.write seen call).2 = s ∨ ∃ l, (s.write seen call).2 = s.put l ∧ suits s.lease l := by
  cases call with
  | get => exact Or.inl rfl
  | create l =>
    rw [LeaseStore.write]
    split
    · exact Or.inl rfl
    · next hnone =>
      have hlease : s.lease = none := Option.not_isSome_iff_eq_none.mp hnone
      exact Or.inr ⟨l, rfl, hlease ▸ h⟩
  | replace l =>
    rw [LeaseStore.write]
    split
    · exact Or.inl rfl
    · split
      · exact Or.inl rfl
      · next hseen => exact Or.inr ⟨l, rfl, h.2 (Decidable.not_not.mp hseen).symm⟩

/-- Whatever goes wrong with a write, what is stored suits the lease that it overwrites. -/
theorem Awaits.attempt (h : s.Awaits suits seen call) (fault : Option WriteFault) :
    (s.attempt seen call fault).2 = s ∨
      ∃ l, (s.attempt seen call fault).2 = s.put l ∧ suits s.lease l := by
  cases fault with
  | none => exact h.write
  | some fault =>
    simp only [LeaseStore.attempt]
    split
    · exact h.write
    · exact Or.inl rfl

end LeaseStore

/-! ## Electors -/

namespace RivalStage

/-- What an elector is about to do suits the lease. -/
def Justified (s : LeaseStore) (id : String) (clock : Nat) : RivalStage → Prop
  | .idle | .leaving => True
  | .begun now => now ≤ clock ∧ s.IsAcquiredBy id now
  | .informed now existing seen =>
    (now ≤ clock ∧ s.IsAcquiredBy id now) ∧ seen ≤ s.version ∧
      (seen = s.version → ∀ l, existing = some l → s.lease = some l)
  | .writing call seen => s.Awaits (Lease.Claims id clock) seen call
  | .clearing call seen => s.Awaits (Lease.Clears id) seen call

/-- What a step of an elector does to itself and to the store: where it writes, it claims the lease,
    or gives it up if that is what it is about. -/
structure Steps (g : RivalStage) (s : LeaseStore) (id : String) (clock : Nat) (g' : RivalStage)
    (s' : LeaseStore) : Prop where
  justified : g'.Justified s' id clock
  spares : s' = s ∨ ∃ l, s' = s.put l ∧
    (g.isClearing = true ∧ Lease.Clears id s.lease l ∨
      g.isClearing = false ∧ Lease.Claims id clock s.lease l)

variable {s : LeaseStore} {id : String} {clock : Nat} {g : RivalStage}

/-- What an elector is about to do suits the lease still when somebody else has written it. -/
theorem Justified.put (h : g.Justified s id clock) {l : Lease} (hother : l.holder ≠ id) :
    g.Justified (s.put l) id clock := by
  have hacquired : ∀ now, (s.put l).IsAcquiredBy id now := by
    intro now l' _ hl' hholder
    obtain rfl := Option.some.inj hl'
    exact absurd hholder hother
  cases g with
  | idle => trivial
  | begun now => exact ⟨h.1, hacquired now⟩
  | informed now existing seen =>
    exact ⟨⟨h.1.1, hacquired now⟩, Nat.le_succ_of_le h.2.1,
      fun hseen => absurd hseen (LeaseStore.ne_version_put h.2.1 l)⟩
  | writing call seen => exact LeaseStore.Awaits.put h l
  | leaving => trivial
  | clearing call seen => exact LeaseStore.Awaits.put h l

theorem Justified.mono (h : g.Justified s id clock) {later : Nat} (hle : clock ≤ later) :
    g.Justified s id later := by
  cases g with
  | idle => trivial
  | begun now => exact ⟨Nat.le_trans h.1 hle, h.2⟩
  | informed now existing seen => exact ⟨⟨Nat.le_trans h.1.1 hle, h.1.2⟩, h.2⟩
  | writing call seen =>
    exact LeaseStore.Awaits.imp h fun _ _ hclaims => hclaims.mono (Int.ofNat_le.mpr hle)
  | leaving => trivial
  | clearing call seen => exact h

theorem Steps.begin (h : g.Justified s id clock)
    (hkept : ∀ l, s.lease = some l → l.IsKept clock) : g.Steps s id clock (g.begin clock) s := by
  refine ⟨?_, Or.inl rfl⟩
  cases g with
  | idle =>
    refine ⟨Nat.le_refl clock, fun l acquiredAt hl _ hacquired => ?_⟩
    obtain ⟨_, renewedAt, hacquired', -, horder, hpast⟩ := (hkept l hl).dated
    obtain rfl := Option.some.inj (hacquired.symm.trans hacquired')
    exact Int.le_trans horder hpast
  | _ => exact h

theorem Steps.leave (h : g.Justified s id clock) : g.Steps s id clock g.leave s := by
  refine ⟨?_, Or.inl rfl⟩
  cases g with
  | idle => trivial
  | _ => exact h

theorem Steps.get (h : g.Justified s id clock) (failure : Option FailureStatus) :
    g.Steps s id clock (g.get id s failure) s := by
  refine ⟨?_, Or.inl rfl⟩
  cases g with
  | begun now =>
    simp only [RivalStage.get]
    split
    · next existing hread =>
      refine ⟨h, Nat.le_refl _, fun _ l hl => ?_⟩
      exact Candidate.read_eq_some (hread.trans (congrArg Except.ok hl))
    · trivial
  | leaving =>
    simp only [RivalStage.get]
    split
    · next l hread =>
      split
      · next hown =>
        have hholder : l.holder = id := by rw [Lease.holder, hown, Option.getD_some]
        exact ⟨Nat.le_refl _, fun _ => ⟨l, Candidate.read_eq_some hread, hholder, rfl⟩⟩
      · trivial
    · trivial
  | _ => exact h

/-- When a lease is claimed. -/
theorem plan_eq_claim {now : Int} {l : Lease} {takeover : Bool}
    (h : ElectionPlan.of id now (some l) = .claim takeover) :
    takeover = false ∧ l.holder = id ∨
      takeover = true ∧ l.holder ≠ id ∧ (l.holder = "" ∨ l.isExpired now = true) := by
  simp only [ElectionPlan.of] at h
  split at h
  · next hown => exact Or.inl ⟨(ElectionPlan.claim.inj h).symm, hown⟩
  · next hother =>
    split at h
    · next hfree => exact Or.inr ⟨(ElectionPlan.claim.inj h).symm, hother, by simpa using hfree⟩
    · cases h

theorem Steps.decide (h : g.Justified s id clock) (name : String) :
    g.Steps s id clock (g.decide name id clock) s := by
  refine ⟨?_, Or.inl rfl⟩
  cases g with
  | informed now existing seen =>
    obtain ⟨⟨hnow, hacquired⟩, hseen, hcurrent⟩ := h
    have hnow : (now : Int) ≤ clock := Int.ofNat_le.mpr hnow
    cases existing with
    | none => exact Lease.Claims.create name hnow
    | some l =>
      cases hplan : ElectionPlan.of id clock (some l) with
      | create => exact absurd hplan (ElectionPlan.of_some_ne_create _ _ l)
      | follow holder =>
        simp only [RivalStage.decide, decision, hplan]
        trivial
      | claim takeover =>
        simp only [RivalStage.decide, decision, hplan]
        -- if it can still be written, the lease is the one that was read
        refine ⟨hseen, fun hversion => ?_⟩
        have hl : s.lease = some l := hcurrent hversion l rfl
        rw [hl]
        rcases plan_eq_claim hplan with ⟨rfl, hown⟩ | ⟨rfl, hother, hfree⟩
        · exact .renew hnow hown fun acquiredAt => hacquired l acquiredAt hl hown
        · exact .takeOver hnow hother hfree
  | _ => exact h

theorem Steps.write (h : g.Justified s id clock) (fault : Option WriteFault) :
    g.Steps s id clock (g.write s fault).1 (g.write s fault).2 := by
  cases g with
  | writing call seen =>
    refine ⟨trivial, (LeaseStore.Awaits.attempt h fault).imp_right ?_⟩
    exact fun ⟨l, hput, hclaims⟩ => ⟨l, hput, Or.inr ⟨rfl, hclaims⟩⟩
  | clearing call seen =>
    refine ⟨trivial, (LeaseStore.Awaits.attempt h fault).imp_right ?_⟩
    exact fun ⟨l, hput, hclears⟩ => ⟨l, hput, Or.inl ⟨rfl, hclears⟩⟩
  | _ => exact ⟨h, Or.inl rfl⟩

end RivalStage

namespace Rivalry

/-! ## The invariant -/

/-- What every state of a rivalry satisfies that begins without a lease. -/
structure Kept (r : Rivalry) : Prop where
  lease : ∀ l, r.store.lease = some l → l.IsKept r.clock
  named : ∀ id g, r.rivals.get? id = some g → id ≠ ""
  justified : ∀ id g, r.rivals.get? id = some g → g.Justified r.store id r.clock

variable {r : Rivalry}

theorem kept_start (leaseName : String) {ids : List String} (hnamed : "" ∉ ids) :
    (start leaseName ids).Kept where
  lease := fun _ hl => nomatch hl
  named := fun _ _ hg hid => hnamed (hid ▸ (get?_start hg).1)
  justified := fun _ _ hg => (get?_start hg).2 ▸ trivial

/-- A step of one elector keeps the invariant. -/
theorem Kept.update (h : r.Kept) {id : String} {f : RivalStage → RivalStage × LeaseStore}
    (hf : ∀ g, r.rivals.get? id = some g →
      g.Steps r.store id r.clock (f g).1 (f g).2) : (r.update id f).Kept := by
  cases hg : r.rivals.get? id with
  | none => rwa [update_of_none hg]
  | some g =>
    have hsteps := hf g hg
    have hclock := r.clock_update id f
    have hstore : (r.update id f).store = (f g).2 := store_update hg f
    refine ⟨fun l hl => ?_, fun j q hq => ?_, fun j q hq => ?_⟩
    · rw [hstore] at hl
      rw [hclock]
      rcases hsteps.spares with hsame | ⟨l', hput, hsuits⟩
      · exact h.lease l (hsame ▸ hl)
      · rw [hput] at hl
        obtain rfl := Option.some.inj hl
        exact hsuits.elim (·.2.isKept h.lease) (·.2.isKept h.lease)
    · rcases get?_update hg hq with ⟨rfl, -⟩ | ⟨-, hq⟩
      · exact h.named j g hg
      · exact h.named j q hq
    · rw [hclock, hstore]
      rcases get?_update hg hq with ⟨rfl, rfl⟩ | ⟨hne, hq⟩
      · exact hsteps.justified
      · have hj := h.justified j q hq
        rcases hsteps.spares with hsame | ⟨l, hput, hsuits⟩
        · rwa [hsame]
        · rw [hput]
          -- the holder is who has written, or nobody
          refine hj.put ?_
          rcases hsuits with ⟨-, hclears⟩ | ⟨-, hclaims⟩
          · exact hclears.holder ▸ (h.named j q hq).symm
          · exact hclaims.holder ▸ hne.symm

theorem Kept.wait (h : r.Kept) (duration : Nat) : (r.act (.wait duration)).Kept := by
  have hle : r.clock ≤ r.clock + duration := Nat.le_add_right _ _
  exact ⟨fun l hl => (h.lease l hl).mono (Int.ofNat_le.mpr hle), h.named,
    fun id g hg => (h.justified id g hg).mono hle⟩

theorem Kept.act (h : r.Kept) (a : RivalryAction) : (r.act a).Kept := by
  cases a with
  | wait duration => exact h.wait duration
  | begin id => exact h.update fun g hg => .begin (h.justified id g hg) h.lease
  | leave id => exact h.update fun g hg => .leave (h.justified id g hg)
  | get id failure => exact h.update fun g hg => .get (h.justified id g hg) failure
  | decide id => exact h.update fun g hg => .decide (h.justified id g hg) r.leaseName
  | write id fault => exact h.update fun g hg => .write (h.justified id g hg) fault

theorem kept_run (leaseName : String) {ids : List String} (hnamed : "" ∉ ids)
    (actions : List RivalryAction) : ((start leaseName ids).run actions).Kept := by
  have hrun : ∀ r : Rivalry, r.Kept → (r.run actions).Kept := by
    induction actions with
    | nil => exact fun r h => h
    | cons a as ih => exact fun r h => ih (r.act a) (h.act a)
  exact hrun _ (kept_start leaseName hnamed)

/-! ## Writes -/

theorem store_update_of_same (r : Rivalry) (id : String) (f : RivalStage → RivalStage) :
    (r.update id fun g => (f g, r.store)).store = r.store := by
  unfold update
  split <;> rfl

/-- Only the write of an elector changes what is stored. -/
theorem Kept.store_act (h : r.Kept) (a : RivalryAction) :
    (r.act a).store = r.store ∨ ∃ id fault l', a = .write id fault ∧
      (r.act a).store = r.store.put l' ∧
        (r.isClearing id = true ∧ Lease.Clears id r.store.lease l' ∨
          r.isClearing id = false ∧ Lease.Claims id r.clock r.store.lease l') := by
  cases a with
  | wait duration => exact Or.inl rfl
  | begin id => exact Or.inl (r.store_update_of_same id _)
  | leave id => exact Or.inl (r.store_update_of_same id _)
  | get id failure => exact Or.inl (r.store_update_of_same id _)
  | decide id => exact Or.inl (r.store_update_of_same id _)
  | write id fault =>
    cases hg : r.rivals.get? id with
    | none => exact Or.inl (by rw [Rivalry.act, update_of_none hg])
    | some g =>
      have hclearing : r.isClearing id = g.isClearing := by rw [isClearing, hg, Option.any_some]
      rw [Rivalry.act, store_update hg]
      refine (RivalStage.Steps.write (h.justified id g hg) fault).spares.imp_right ?_
      rintro ⟨l', hput, hsuits⟩
      exact ⟨id, fault, l', rfl, hput, by rwa [hclearing]⟩

/-- In every run that begins without a lease, the lease is not acquired after it was renewed, and
    each action leaves it as it is unless it is a write that the server accepts. A write of a round
    makes its elector the holder. It overwrites the lease of somebody else only if nobody holds
    that any more or it has expired. A write that gives up the lease overwrites that of its own
    elector, and changes its holder alone. The counter starts from zero and grows by one if
    somebody becomes the holder who was not, and else stays as it is. -/
theorem custody_of_run (leaseName : String) (ids : List String) (hnamed : "" ∉ ids)
    (actions : List RivalryAction) :
    let r := (start leaseName ids).run actions
    (∀ l, r.store.lease = some l → ∃ acquiredAt renewedAt,
        l.spec.bind (·.acquiredAt) = some acquiredAt ∧
          l.spec.bind (·.renewedAt) = some renewedAt ∧ acquiredAt ≤ renewedAt) ∧
      ∀ a, (r.act a).store = r.store ∨ ∃ id fault l', a = .write id fault ∧
        (r.act a).store = r.store.put l' ∧
        (r.isClearing id = false → l'.holder = id) ∧
        (r.isClearing id = true → ∃ l, r.store.lease = some l ∧ l.holder = id ∧ l' = l.released) ∧
        (r.store.lease = none → l'.transitions = 0) ∧
        ∀ l, r.store.lease = some l →
          (l.holder ≠ id → l.holder = "" ∨ l.isExpired r.clock = true) ∧
            (l.transitions < Lease.maxCount →
              l'.transitions = l.transitions +
                if l'.holder = id ∧ l.holder ≠ id then 1 else 0) := by
  intro r
  have hkept : r.Kept := kept_run leaseName hnamed actions
  refine ⟨fun l hl => ?_, fun a => (hkept.store_act a).imp_right ?_⟩
  · obtain ⟨acquiredAt, renewedAt, ha, hr, horder, -⟩ := (hkept.lease l hl).dated
    exact ⟨acquiredAt, renewedAt, ha, hr, horder⟩
  · rintro ⟨id, fault, l', rfl, hput, ⟨hclearing, hclears⟩ | ⟨hclearing, hclaims⟩⟩
    · obtain ⟨prior, hprior, hown, hreleased⟩ := hclears
      refine ⟨id, fault, l', rfl, hput, fun h => ?_, fun _ => ⟨prior, hprior, hown, hreleased⟩,
        fun h => ?_, fun l hl => ?_⟩
      · exact absurd (hclearing.symm.trans h) (by decide)
      · exact absurd (hprior.symm.trans h) (Option.some_ne_none prior)
      · obtain rfl := Option.some.inj (hprior.symm.trans hl)
        refine ⟨fun hother => absurd hown hother, fun _ => ?_⟩
        rw [if_neg fun hne => hne.2 hown, Int.add_zero, hreleased, Lease.transitions_released]
    · refine ⟨id, fault, l', rfl, hput, fun _ => hclaims.holder, fun h => ?_, fun h => ?_,
        fun l hl => ?_⟩
      · exact absurd (hclearing.symm.trans h) (by decide)
      · rw [h] at hclaims
        exact hclaims.transitions_of_none
      · rw [hl] at hclaims
        exact ⟨hclaims.free, hclaims.transitions_eq (hkept.lease l hl)⟩

/-- Elector `a` makes the lease and is about to renew it after sixteen seconds, when `b` takes it
    over: the lease has expired by then, and its first transition is counted. The renewal of `a`,
    which was decided on before, is refused. -/
theorem custody_of_late_renewal :
    let r := (start "leader" ["a", "b"]).run
      [.begin "a", .get "a" none, .decide "a", .write "a" none, .wait 16000000,
        .begin "a", .get "a" none, .decide "a", .begin "b", .get "b" none, .decide "b"]
    let r' := r.act (.write "b" none)
    "" ∉ ["a", "b"] ∧ r.store.lease.map (·.holder) = some "a" ∧ r'.store ≠ r.store ∧
      (r'.act (.write "a" none)).store = r'.store ∧
      ∃ l l', r.store.lease = some l ∧ r'.store.lease = some l' ∧ l.isExpired r.clock = true ∧
        l'.transitions = l.transitions + 1 := by
  intro r r'
  have hnamed : "" ∉ ["a", "b"] := by decide
  have hholder : r.store.lease.map (·.holder) = some "a" := by decide +kernel
  have hcount : r.store.lease.map (·.transitions) = some 0 := by decide +kernel
  have hwritten : r'.store ≠ r.store := by decide +kernel
  have hrefused : (r'.act (.write "a" none)).store = r'.store := by decide +kernel
  have hclearing : r.isClearing "b" = false := by decide +kernel
  obtain ⟨l, hl, hheld⟩ := Option.map_eq_some_iff.mp hholder
  have hother : l.holder ≠ "b" := by rw [hheld]; decide
  have hlt : l.transitions < Lease.maxCount := by
    rw [hl] at hcount
    have hzero : l.transitions = 0 := Option.some.inj hcount
    rw [hzero]
    decide
  obtain ⟨-, hact⟩ := custody_of_run "leader" ["a", "b"] hnamed
    [.begin "a", .get "a" none, .decide "a", .write "a" none, .wait 16000000,
      .begin "a", .get "a" none, .decide "a", .begin "b", .get "b" none, .decide "b"]
  obtain ⟨id, _, l', ha, hput, hclaimed, -, -, hover⟩ :=
    (hact (.write "b" none)).resolve_left hwritten
  obtain ⟨rfl, -⟩ := RivalryAction.write.inj ha
  obtain ⟨hfree, hcounted⟩ := hover l hl
  have hexpired : l.isExpired r.clock = true :=
    (hfree hother).resolve_left fun hnobody => by
      rw [hheld] at hnobody
      exact absurd hnobody (by decide)
  refine ⟨hnamed, hholder, hwritten, hrefused, l, l', hl, congrArg (·.lease) hput, hexpired, ?_⟩
  rw [hcounted hlt, if_pos ⟨hclaimed hclearing, hother⟩]

end Rivalry

end ScrapeDiscovery

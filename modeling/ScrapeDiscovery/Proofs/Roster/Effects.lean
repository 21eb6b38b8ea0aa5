import ScrapeDiscovery.Proofs.Roster.Consistency
import ScrapeDiscovery.Proofs.Roster.Interleaving

/-!
# What a step of a call does about a target

Handlers that share a registry and a factory take calls whose steps come in any order. A
step of a call publishes a target, takes it away from the handler of the call, retracts it
if that handler is the recorded owner, or does nothing about it. Between looking the owner
up and publishing, a call `Promises` its target; between taking a target away and
retracting it, a call `Retracts` it.

Results:
* `Call.effect`: the four things that a step may do about one target.
* `Call.shared`, `Call.fits`: what a step keeps of the handlers and of the call itself.
-/

namespace ScrapeDiscovery

/-! ## Handlers of one registry -/

namespace Roster

/-- All handlers have the same registry and the same factory. -/
structure Shared (r : Roster) (registry : String) (factory : Family) : Prop where
  owners : r.OwnersExist
  attached : ∀ id h, r.handler? id = some h → h.registry = registry ∧ h.factory = factory

variable {r : Roster} {registry : String} {factory : Family}

theorem Shared.update (hr : r.Shared registry factory) (id : HandlerId)
    {f : TargetHandler → TargetHandler} (hreg : ∀ h, (f h).registry = h.registry)
    (hfactory : ∀ h, (f h).factory = h.factory) : (r.update id f).Shared registry factory := by
  refine ⟨ownersExist_update hr.owners id f, fun i h hi => ?_⟩
  rw [handler?_update] at hi
  split_ifs at hi
  · obtain ⟨h', hid, rfl⟩ := Option.map_eq_some_iff.mp hi
    rw [hreg, hfactory]
    exact hr.attached id h' hid
  · exact hr.attached i h hi

theorem Shared.retract (hr : r.Shared registry factory) (id : HandlerId) (target : String) :
    (r.retract id target).Shared registry factory := by
  refine ⟨ownersExist_retract hr.owners id target, fun i h hi => ?_⟩
  rw [handler?_retract hr.owners] at hi
  exact hr.attached i h hi

theorem Shared.commit (hr : r.Shared registry factory) {id : HandlerId} {h : TargetHandler}
    (hid : r.handler? id = some h) (target : String) (config : ScrapeConfig) :
    (r.commit id h target config).Shared registry factory := by
  refine ⟨fun registry' target' i ho => ?_, fun i h' hi => ?_⟩
  · rw [owner?_commit] at ho
    rw [handler?_commit hid]
    split_ifs with hi
    · rfl
    split_ifs at ho
    · exact absurd (Option.some.inj ho).symm hi
    · exact hr.owners registry' target' i ho
  · rw [handler?_commit hid] at hi
    split_ifs at hi
    · obtain rfl := Option.some.inj hi
      exact hr.attached id h hid
    · exact hr.attached i h' hi

theorem Shared.add (hr : r.Shared registry factory) {h : TargetHandler}
    (hreg : h.registry = registry) (hfactory : h.factory = factory) :
    (r.add h).Shared registry factory := by
  refine ⟨fun registry' target' i ho => ?_, fun i h' hi => ?_⟩
  · rw [owner?_add] at ho
    rw [handler?_add]
    split_ifs
    · rfl
    · exact hr.owners registry' target' i ho
  · rw [handler?_add] at hi
    split_ifs at hi
    · obtain rfl := Option.some.inj hi
      exact ⟨hreg, hfactory⟩
    · exact hr.attached i h' hi

end Roster

/-! ## What a step does about a target -/

namespace Stage

/-- A call in this stage has looked the owner of a target up and may go on to publish it. -/
def Promises : Stage → String → Prop
  | reading resource _ _, target => resource.targetName = target
  | publishing target' _ _ _, target => target' = target
  | _, _ => False

/-- A call in this stage has taken a target away from its handler and is about to retract it. -/
def Retracts : Stage → String → Prop
  | retracting targets _, target => target ∈ targets
  | _, _ => False

/-- The provider that a call is about to publish is the one for its target. -/
def Fits (factory : Family) : Stage → Prop
  | publishing target _ config p => p = ⟨providerName factory.factoryName target, config⟩
  | _ => True

theorem Retracts.not_promises {s : Stage} {target : String} (h : s.Retracts target) :
    ¬s.Promises target := by
  cases s <;> first | exact h.elim | exact id

end Stage

/-- What a step of a call from a stage `s` to a stage `s'` does about a target. -/
inductive Effect (registry : String) (factory : Family) (id : HandlerId) (target : String)
    (r r' : Roster) (s s' : Stage) : Prop
  | nothing (howner : r'.owner? registry target = r.owner? registry target)
      (henc : ∀ i, r'.encoding i target = r.encoding i target)
      (hcatalog : r'.catalog.get? (providerName factory.factoryName target) =
        r.catalog.get? (providerName factory.factoryName target))
      (hpromises : s'.Promises target →
        s.Promises target ∨ ∀ i, r.owner? registry target = some i → i = id)
      (hretracts : s'.Retracts target → s.Retracts target)
      (hkeeps : s.Retracts target →
        s'.Retracts target ∨ r.owner? registry target ≠ some id)
  | published {change : TargetChange} {config : ScrapeConfig} {p : Provider}
      (hs : s = .publishing target change config p) (hs' : s' = .returned)
      (howner : r'.owner? registry target = some id)
      (henc : ∀ i, r'.encoding i target = if i = id then some config else r.encoding i target)
      (hcatalog : r'.catalog.get? (providerName factory.factoryName target) =
        some ⟨providerName factory.factoryName target, config⟩)
  | withdrawn (hs' : s'.Retracts target)
      (howner : r'.owner? registry target = r.owner? registry target)
      (henc : ∀ i, r'.encoding i target = if i = id then none else r.encoding i target)
      (hcatalog : r'.catalog.get? (providerName factory.factoryName target) =
        r.catalog.get? (providerName factory.factoryName target))
  | retracted (hs : s.Retracts target) (hs' : ¬s'.Promises target)
      (howner : r'.owner? registry target =
        if r.owner? registry target = some id then none else r.owner? registry target)
      (henc : ∀ i, r'.encoding i target = r.encoding i target)
      (hcatalog : r'.catalog.get? (providerName factory.factoryName target) =
        if r.owner? registry target = some id then none
        else r.catalog.get? (providerName factory.factoryName target))

section Step

variable {registry : String} {factory : Family} {r : Roster} {id : HandlerId} {h : TargetHandler}

/-- A step that leaves the roster as it is, but for what is told, and retracts nothing. -/
theorem Effect.unchanged {target : String} {r' : Roster} {s s' : Stage}
    (howner : r'.owner? registry target = r.owner? registry target)
    (henc : ∀ i, r'.encoding i target = r.encoding i target) (hcatalog : r'.catalog = r.catalog)
    (hs : ¬s.Retracts target) (hs' : ¬s'.Promises target) (hs'' : ¬s'.Retracts target) :
    Effect registry factory id target r r' s s' :=
  .nothing howner henc (hcatalog ▸ rfl) (fun h => absurd h hs') (fun h => absurd h hs'')
    fun h => absurd h hs

theorem effect_looking (hr : r.Shared registry factory) (hid : r.handler? id = some h)
    (resource : Resource) (rule : Option Rule) (confirmed : Bool) (target : String) :
    let s : Stage := .looking resource rule confirmed
    Effect registry factory id target r (s.step r id h).2 s (s.step r id h).1 := by
  obtain ⟨rfl, -⟩ := hr.attached id h hid
  simp only [Stage.step, Roster.owner_eq hr.owners]
  by_cases howned : (r.owner? h.registry resource.targetName).any (· ≠ id)
  · rw [if_pos howned]
    exact .unchanged rfl (fun _ => rfl) rfl (fun hs => hs) (fun hs => hs) fun hs => hs
  · rw [if_neg howned]
    refine .nothing rfl (fun _ => rfl) rfl (fun hs => Or.inr ?_) (fun hs => hs) Or.inl
    -- whoever is recorded now is the handler of the call itself
    intro i hi
    rw [← show resource.targetName = target from hs] at hi
    by_contra hne
    rw [hi] at howned
    exact howned (by simpa using hne)

theorem effect_reading (resource : Resource) (rule : Option Rule) (confirmed : Bool)
    (target : String) :
    let s : Stage := .reading resource rule confirmed
    Effect registry factory id target r (s.step r id h).2 s (s.step r id h).1 := by
  intro s
  have hreturned : ∀ mishaps, Effect registry factory id target r { r with mishaps } s .returned :=
    fun _ => .unchanged rfl (fun _ => rfl) rfl (fun hs => hs) (fun hs => hs) fun hs => hs
  simp only [s, Stage.step, Stage.afterReading]
  split
  · exact hreturned _
  · split_ifs
    · exact hreturned r.mishaps
    all_goals
      split
      · exact hreturned _
      · exact .nothing rfl (fun _ => rfl) rfl Or.inl (fun hs => hs) Or.inl
  · split_ifs
    · exact .unchanged rfl (fun _ => rfl) rfl (fun hs => hs) (fun hs => hs) fun hs => hs
    · exact hreturned r.mishaps

theorem effect_publishing (hr : r.Shared registry factory) (hid : r.handler? id = some h)
    (target' : String) (change : TargetChange) (config : ScrapeConfig) (target : String) :
    let s : Stage := .publishing target' change config
      ⟨providerName factory.factoryName target', config⟩
    Effect registry factory id target r (s.step r id h).2 s (s.step r id h).1 := by
  obtain ⟨rfl, rfl⟩ := hr.attached id h hid
  simp only [Stage.step, Roster.publish_eq hid]
  by_cases hclosed : h.closed
  · rw [if_pos hclosed]
    exact .unchanged rfl (fun _ => rfl) rfl (fun hs => hs) (fun hs => hs) fun hs => hs
  rw [if_neg hclosed]
  have howner := Roster.owner?_commit r id h target' config h.registry target
  have henc := fun i => Roster.encoding_commit hid target' config i target
  have hcatalog := Roster.catalog_commit r id h target' config
    (providerName h.factory.factoryName target)
  by_cases htarget : target = target'
  · subst htarget
    refine .published rfl rfl (howner.trans (if_pos ⟨rfl, rfl⟩)) (fun i => ?_)
      (hcatalog.trans (if_pos rfl))
    exact (henc i).trans (if_congr (and_iff_left rfl) rfl rfl)
  · -- another target has another provider
    exact .nothing (howner.trans (if_neg fun hn => htarget hn.2))
      (fun i => (henc i).trans (if_neg fun hn => htarget hn.2))
      (hcatalog.trans (if_neg fun hn => htarget (providerName_inj.mp hn).2)) False.elim
      (fun hs => hs) Or.inl

theorem effect_withdrawing (target' target : String) :
    let s : Stage := .withdrawing target'
    Effect registry factory id target r (s.step r id h).2 s (s.step r id h).1 := by
  have henc := fun i => Roster.encoding_withdraw r id (· == target') i target
  by_cases htarget : target = target'
  · refine .withdrawn (List.mem_singleton.mpr htarget) rfl (fun i => (henc i).trans ?_) rfl
    simp [htarget]
  · refine .unchanged rfl (fun i => (henc i).trans (if_neg ?_)) rfl (fun hs => hs)
      (fun hs => hs) fun hs => htarget (List.mem_singleton.mp hs)
    simp [htarget]

theorem effect_clearing (target : String) :
    Effect registry factory id target r (Stage.clearing.step r id h).2 .clearing
      (Stage.clearing.step r id h).1 := by
  have henc := fun i => Roster.encoding_withdraw r id (fun _ => true) i target
  by_cases hheld : r.holds id target = true
  · refine .withdrawn (Roster.mem_picked.mpr ⟨hheld, rfl⟩) rfl (fun i => (henc i).trans ?_) rfl
    simp
  · refine .unchanged rfl (fun i => (henc i).trans ?_) rfl (fun hs => hs) (fun hs => hs)
      fun hs => hheld (Roster.mem_picked.mp hs).1
    split_ifs with hi
    · rw [hi.1]
      rw [Roster.holds_iff_encoding, not_exists] at hheld
      exact (Option.eq_none_iff_forall_ne_some.mpr hheld).symm
    · rfl

theorem effect_retracting (hr : r.Shared registry factory) (hid : r.handler? id = some h)
    (target' : String) (rest : List String) (told : Bool) (target : String) :
    let s : Stage := .retracting (target' :: rest) told
    Effect registry factory id target r (s.step r id h).2 s (s.step r id h).1 := by
  intro s
  obtain ⟨rfl, rfl⟩ := hr.attached id h hid
  -- whether it is told makes no difference to the views
  have howner : (s.step r id h).2.owner? h.registry target =
      (r.retract id target').owner? h.registry target := by
    simp only [s, Stage.step]
    split <;> rfl
  have henc : ∀ i, (s.step r id h).2.encoding i target = r.encoding i target := by
    intro i
    have hsame : (s.step r id h).2.handlers = r.handlers := by
      simp only [s, Stage.step]
      split <;> exact Roster.handlers_retract r id target'
    exact Roster.encoding_of_handlers_eq hsame i target
  have hcatalog : (s.step r id h).2.catalog = (r.retract id target').catalog := by
    simp only [s, Stage.step]
    split <;> rfl
  rw [Roster.owner?_retract hr.owners hid] at howner
  have hlive := Roster.catalog_retract hr.owners hid target'
    (providerName h.factory.factoryName target)
  rw [← hcatalog] at hlive
  by_cases htarget : target = target'
  · subst htarget
    refine .retracted List.mem_cons_self (fun hs => hs) (howner.trans ?_) henc (hlive.trans ?_)
    · exact if_congr (by simp) rfl rfl
    · exact if_congr (and_iff_left rfl) rfl rfl
  · exact .nothing (howner.trans (if_neg fun hn => htarget hn.2.1)) henc
      (hlive.trans (if_neg fun hn => htarget (providerName_inj.mp hn.2).2)) False.elim
      (List.mem_cons_of_mem target') fun hs => Or.inl ((List.mem_cons.mp hs).resolve_left htarget)

theorem effect_step (hr : r.Shared registry factory) (hid : r.handler? id = some h) {s : Stage}
    (hs : s.Fits factory) (target : String) :
    Effect registry factory id target r (s.step r id h).2 s (s.step r id h).1 := by
  cases s with
  | looking resource rule confirmed => exact effect_looking hr hid resource rule confirmed target
  | reading resource rule confirmed => exact effect_reading resource rule confirmed target
  | publishing target' change config p =>
    obtain rfl : p = _ := hs
    exact effect_publishing hr hid target' change config target
  | checking target' =>
    simp only [Stage.step]
    split_ifs
    all_goals exact .unchanged rfl (fun _ => rfl) rfl (fun hs => hs) (fun hs => hs) fun hs => hs
  | withdrawing target' => exact effect_withdrawing target' target
  | shutting =>
    exact .unchanged rfl (fun i => Roster.encoding_shut r id i target) rfl (fun hs => hs)
      (fun hs => hs) fun hs => hs
  | clearing => exact effect_clearing target
  | retracting targets told =>
    cases targets with
    | nil =>
      exact .unchanged rfl (fun _ => rfl) rfl List.not_mem_nil (fun hs => hs) fun hs => hs
    | cons target' rest => exact effect_retracting hr hid target' rest told target
  | returned =>
    exact .unchanged rfl (fun _ => rfl) rfl (fun hs => hs) (fun hs => hs) fun hs => hs

theorem shared_step (hr : r.Shared registry factory) (hid : r.handler? id = some h) {s : Stage}
    (hs : s.Fits factory) : (s.step r id h).2.Shared registry factory := by
  cases s with
  | looking resource rule confirmed =>
    simp only [Stage.step, Roster.owner_eq hr.owners]
    exact hr
  | reading resource rule confirmed =>
    have hsame : ∀ mishaps, ({ r with mishaps } : Roster).Shared registry factory :=
      fun _ => ⟨hr.owners, hr.attached⟩
    simp only [Stage.step, Stage.afterReading]
    split
    · exact hsame _
    · split_ifs
      · exact hr
      all_goals
        split
        · exact hsame _
        · exact hr
    · split_ifs <;> exact hr
  | publishing target' change config p =>
    obtain rfl : p = _ := hs
    obtain ⟨-, rfl⟩ := hr.attached id h hid
    simp only [Stage.step, Roster.publish_eq hid]
    by_cases hclosed : h.closed
    · rw [if_pos hclosed]
      exact hr
    · rw [if_neg hclosed]
      have hcommit := hr.commit hid target' config
      exact ⟨hcommit.owners, hcommit.attached⟩
  | checking target' => exact hr
  | withdrawing target' => exact hr.update id (fun _ => rfl) fun _ => rfl
  | shutting => exact hr.update id (fun _ => rfl) fun _ => rfl
  | clearing => exact hr.update id (fun _ => rfl) fun _ => rfl
  | retracting targets told =>
    cases targets with
    | nil => exact hr
    | cons target' rest =>
      have hretract := hr.retract id target'
      simp only [Stage.step]
      split
      · exact ⟨hretract.owners, hretract.attached⟩
      · exact hretract
  | returned => exact hr

/-- A provider that a call has built is the one for its target. -/
theorem fits_step (hr : r.Shared registry factory) (hid : r.handler? id = some h) {s : Stage} :
    (s.step r id h).1.Fits factory := by
  obtain ⟨-, rfl⟩ := hr.attached id h hid
  cases s with
  | looking resource rule confirmed =>
    simp only [Stage.step]
    split <;> trivial
  | reading resource rule confirmed =>
    simp only [Stage.step, Stage.afterReading]
    split
    · trivial
    · next config henc =>
      split_ifs
      · trivial
      all_goals
        split
        · trivial
        · next p hp =>
          rw [Encoder.build_of_encode h.factory henc] at hp
          split_ifs at hp
          exact (Except.ok.inj hp).symm
    · split_ifs <;> trivial
  | publishing target' change config p =>
    simp only [Stage.step]
    split <;> trivial
  | checking target' =>
    simp only [Stage.step]
    split <;> trivial
  | retracting targets told => cases targets <;> trivial
  | _ => trivial

end Step

namespace Call

variable {registry : String} {factory : Family} {r : Roster} {c : Call}

/-- What a step of a call does about a target. -/
theorem effect (hr : r.Shared registry factory) (hfits : c.stage.Fits factory) (target : String) :
    Effect registry factory c.handler target r (c.step r).2 c.stage (c.step r).1 := by
  cases hid : r.handler? c.handler with
  | none =>
    simp only [step, hid]
    refine .nothing rfl (fun _ => rfl) rfl False.elim False.elim fun _ => Or.inr fun ho => ?_
    -- a recorded owner exists
    have hsome := hr.owners registry target c.handler ho
    rw [hid] at hsome
    cases hsome
  | some h =>
    simp only [step, hid]
    exact effect_step hr hid hfits target

theorem shared (hr : r.Shared registry factory) (hfits : c.stage.Fits factory) :
    (c.step r).2.Shared registry factory := by
  cases hid : r.handler? c.handler with
  | none =>
    simp only [step, hid]
    exact hr
  | some h =>
    simp only [step, hid]
    exact shared_step hr hid hfits

theorem fits (hr : r.Shared registry factory) : (c.step r).1.Fits factory := by
  cases hid : r.handler? c.handler with
  | none =>
    simp only [step, hid]
    trivial
  | some h =>
    simp only [step, hid]
    exact fits_step hr hid

end Call

end ScrapeDiscovery

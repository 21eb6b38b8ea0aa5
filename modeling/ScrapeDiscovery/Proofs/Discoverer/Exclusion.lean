import ScrapeDiscovery.Proofs.Discoverer.Claims
import ScrapeDiscovery.Proofs.Discoverer.Lasting

/-!
# Rules before annotations

A resource that asks for itself is served only if no rule claims it. Handlers of
prometheus rules share a registry with the handler of such resources, so that the
registry keeps them apart. Telegraf rules have registries of their own, and for
them it rests on the order in which a resource is taken in: who has no claim gives
the target up before anybody who has one is asked. Nothing else that a discoverer
does gives anybody a target, but for the API server, which never asks for itself.

Results:
* `Exclusive.withdrawals`, `Exclusive.performLeading`: what keeps rules and annotations apart.
* `Sound.exclusive_discover`: taking a resource in keeps them apart.
* `Sound.exclusive_step`: so does every operation.
* `not_holds_pipeline_of_annotated`: no state of a run has a target that both hold.
-/

namespace ScrapeDiscovery.Discoverer

open Roster

/-- Nobody else holds a target that asked for itself, and the API server has not. -/
structure Exclusive (d : Discoverer) : Prop where
  alone : ∀ target id, d.roster.holds d.annotated target = true →
    d.roster.holds id target = true → id = d.annotated
  aloof : ∀ r : Resource, r.kind = .apiServer → d.roster.holds d.annotated r.targetName = false

variable {d d' : Discoverer}

/-! ## Withdrawing -/

theorem Exclusive.of_holds (he : d.Exclusive) (hann : d'.annotated = d.annotated)
    (hheld : ∀ id target, d'.roster.holds id target = true → d.roster.holds id target = true) :
    d'.Exclusive where
  alone target id hh hid := by
    rw [hann] at hh ⊢
    exact he.alone target id (hheld _ _ hh) (hheld _ _ hid)
  aloof r hr := by
    rw [hann, Bool.eq_false_iff]
    intro hh
    have hno := he.aloof r hr
    rw [hheld _ _ hh] at hno
    cases hno

theorem Exclusive.withdrawals (he : d.Exclusive) (hs : d.Sound)
    (hann : d'.annotated = d.annotated) (hw : Withdrawals d.roster d'.roster) : d'.Exclusive := by
  refine he.of_holds hann fun id target hh => ?_
  obtain ⟨config, hh⟩ := holds_iff_encoding.mp hh
  exact holds_iff_encoding.mpr ⟨config, Withdrawals.encoding hs.consistent hw hh⟩

theorem annotated_performAll (d : Discoverer) (calls : List HandlerCall) :
    (d.performAll calls).annotated = d.annotated := by
  rw [performAll_eq]

theorem annotated_deleteResources (d : Discoverer) (resources : List Resource) :
    (resources.foldl deleteResource d).annotated = d.annotated := by
  induction resources generalizing d with
  | nil => rfl
  | cons r rs ih => exact (ih (d.deleteResource r)).trans (annotated_performAll d _)

theorem annotated_setAnnotationPolicy (d : Discoverer) (excludes : List Selectors)
    (disabled : Bool) : (d.setAnnotationPolicy excludes disabled).annotated = d.annotated := by
  unfold setAnnotationPolicy
  split <;> rfl

/-! ## Asking for the API server -/

/-- A call of a rule for the API server is none of the handler of the targets that ask for
    themselves. -/
def IsForeignCall (d : Discoverer) (c : HandlerCall) : Prop :=
  ∃ id rule, c = .handle id .apiServer rule ∧ id ≠ d.annotated

/-- Rules for the API server do not meet any target that asked for itself. -/
theorem Exclusive.performLeading (he : d.Exclusive) (hs : d.Sound) (leading : Bool)
    {calls : List HandlerCall} (hcalls : ∀ c ∈ calls, d.IsForeignCall c) :
    (d.performLeading leading calls).Exclusive := by
  unfold Discoverer.performLeading
  split
  swap
  · exact he
  -- of the targets that asked for themselves none is reached
  have hown : ∀ target, (d.performAll calls).roster.holds d.annotated target = true →
      d.roster.holds d.annotated target = true := by
    intro target hh
    obtain ⟨config, hh⟩ := holds_iff_encoding.mp hh
    rw [hs.encoding_performAll_of_ne fun c hc hreached => ?_] at hh
    · exact holds_iff_encoding.mpr ⟨config, hh⟩
    · obtain ⟨id, rule, rfl, hid⟩ := hcalls c hc
      exact hid hreached.1.symm
  have hother : ∀ id target, target ≠ Resource.apiServer.targetName →
      (d.performAll calls).roster.holds id target = true → d.roster.holds id target = true := by
    intro id target hne hh
    obtain ⟨config, hh⟩ := holds_iff_encoding.mp hh
    rw [hs.encoding_performAll_of_ne fun c hc hreached => ?_] at hh
    · exact holds_iff_encoding.mpr ⟨config, hh⟩
    · obtain ⟨_, rule, rfl, -⟩ := hcalls c hc
      exact hne hreached.2
  constructor
  · intro target id hh hid
    rw [annotated_performAll] at hh ⊢
    have hheld := hown target hh
    refine he.alone target id hheld (hother id target ?_ hid)
    rintro rfl
    rw [he.aloof .apiServer rfl] at hheld
    cases hheld
  · intro r hr
    rw [annotated_performAll, Bool.eq_false_iff]
    intro hh
    have hno := he.aloof r hr
    rw [hown _ hh] at hno
    cases hno

theorem Sound.isForeignCall_of_mem_apiServerCalls (hs : d.Sound) {p : Pipeline}
    (hp : p ∈ d.pipelines.values) {c : HandlerCall} (hc : c ∈ apiServerCalls p) :
    d.IsForeignCall c := by
  unfold apiServerCalls at hc
  split at hc
  · exact ⟨p.handler, _, List.mem_singleton.mp hc, hs.handler_ne_annotated hp⟩
  · cases hc

/-- What rules ask for the API server while they are installed. -/
theorem Sound.isForeignCall_installation (hs : d.Sound) (rules : List Rule) :
    ∀ c ∈ (d.installation rules).calls, (d.installation rules).discoverer.IsForeignCall c := by
  intro c hc
  have hi : (d.installation rules).discoverer.Sound := hs.installation rules
  rcases Sound.mem_installAll_calls (i := { discoverer := d.kept rules }) (hs.kept rules) hc with
    hnone | ⟨rule, p, -, -, hp, -, rfl⟩ | ⟨id, rule, rfl, hid⟩
  · cases hnone
  · exact ⟨p.handler, _, rfl, hi.apart rule.name p hp⟩
  · exact ⟨id, rule, rfl, fun he => hid (mem_installed.mpr (Or.inr he))⟩

/-! ## Taking a resource in -/

theorem annotated_discover (d : Discoverer) (leading : Bool) (resource : Resource) :
    (d.discover leading resource).annotated = d.annotated := by
  unfold discover
  split
  · rfl
  · exact annotated_performAll d _

theorem Sound.holds_discover_of_ne (hs : d.Sound) {leading : Bool} {resource : Resource}
    {target : String} (hne : target ≠ resource.targetName) (id : HandlerId) :
    (d.discover leading resource).roster.holds id target = d.roster.holds id target := by
  rw [Bool.eq_iff_iff, holds_iff_encoding, holds_iff_encoding, hs.encoding_discover_of_ne hne]

/-- Where a rule claims a resource, the resource is not served for itself. -/
theorem Sound.not_holds_annotated_discover (hs : d.Sound) {leading : Bool} {resource : Resource}
    (hleading : resource.kind.isClusterScoped = true → leading = true)
    (hclaimed : d.claims resource ≠ []) :
    (d.discover leading resource).roster.holds d.annotated resource.targetName = false := by
  rw [discover_eq_served hleading hclaimed]
  exact hs.not_holds_served fun q hq he =>
    hs.handler_ne_annotated (mem_claims_iff.mp hq).1 he.symm

/-- Where no rule claims a resource, no rule holds its target. -/
theorem Sound.eq_annotated_of_holds_discover (hs : d.Sound) {leading : Bool} {resource : Resource}
    (hleading : resource.kind.isClusterScoped = true → leading = true)
    (hunclaimed : d.claims resource = []) {id : HandlerId}
    (hh : (d.discover leading resource).roster.holds id resource.targetName = true) :
    id = d.annotated := by
  have hin := (hs.discover leading resource).mem_installed_of_holds hh
  rcases mem_installed.mp hin with hid | hid
  · obtain ⟨k, p, hp, rfl⟩ := mem_handlers.mp hid
    rw [pipelines_discover] at hp
    have hp := KeyMap.mem_values_iff.mpr ⟨k, hp⟩
    have hmatch : p.filter.isMatch resource = false := by
      rw [Bool.eq_false_iff]
      intro hmatch
      have hclaim := mem_claims_iff.mpr ⟨hp, hmatch⟩
      rw [hunclaimed] at hclaim
      cases hclaim
    rw [hs.not_holds_discover hleading hp hmatch] at hh
    cases hh
  · exact hid.trans (d.annotated_discover leading resource)

/-- The API server is never served for itself. -/
theorem discover_of_apiServer {leading : Bool} {resource : Resource}
    (hkind : resource.kind = .apiServer) (hleading : leading = true)
    (hunclaimed : d.claims resource = []) :
    d.discover leading resource =
      d.performAll ((d.strays resource).map (.delete · resource.targetName)) := by
  have hannotate : ∀ d : Discoverer, d.annotate resource = d := fun d => if_pos hkind
  rw [Discoverer.discover, hleading, Bool.not_true, Bool.and_false, if_neg Bool.false_ne_true,
    performAll_calls, hunclaimed]
  exact hannotate _

theorem Sound.exclusive_discover (hs : d.Sound) (he : d.Exclusive) (leading : Bool)
    (resource : Resource) : (d.discover leading resource).Exclusive := by
  by_cases hin : (resource.kind.isClusterScoped && !leading) = true
  · rw [Discoverer.discover, if_pos hin]
    exact he
  have hleading := isClusterScoped_imp_of_not hin
  constructor
  · intro target id hh hid
    rw [annotated_discover] at hh ⊢
    by_cases ht : target = resource.targetName
    · subst ht
      by_cases hclaims : d.claims resource = []
      · exact hs.eq_annotated_of_holds_discover hleading hclaims hid
      · rw [hs.not_holds_annotated_discover hleading hclaims] at hh
        cases hh
    · rw [hs.holds_discover_of_ne ht] at hh hid
      exact he.alone target id hh hid
  · intro r hr
    by_cases ht : r.targetName = resource.targetName
    · have hkind : resource.kind = .apiServer :=
        (Resource.kind_eq_of_targetName_eq ht).symm.trans hr
      by_cases hclaims : d.claims resource = []
      · have hsame := discover_of_apiServer hkind (hleading (hkind ▸ rfl)) hclaims
        have hw := d.performAll_deletes_withdrawals (d.strays resource) resource.targetName
        rw [← hsame] at hw
        exact (he.withdrawals hs (d.annotated_discover leading resource) hw).aloof r hr
      · rw [annotated_discover, ht]
        exact hs.not_holds_annotated_discover hleading hclaims
    · rw [annotated_discover, hs.holds_discover_of_ne ht]
      exact he.aloof r hr

/-! ## Every operation -/

theorem Sound.exclusive_handleAll (hs : d.Sound) (he : d.Exclusive) (leading : Bool)
    (rules : List Rule) : (d.handleAll leading rules).2.Exclusive := by
  let i : Installation := d.installation rules
  have hi : i.discoverer.Sound := hs.installation rules
  have hkept : i.discoverer.Exclusive :=
    he.withdrawals hs (d.annotated_installation rules) (d.installation_withdrawals rules)
  have hinstalled : i.discoverer.publishCount.Exclusive := hkept.of_holds rfl fun _ _ hh => hh
  have hasked := hinstalled.performLeading hi.publishCount leading
    (hs.isForeignCall_installation rules)
  exact hasked.of_holds rfl fun _ _ hh => hh

theorem Sound.exclusive_handle (hs : d.Sound) (he : d.Exclusive) {leading : Bool} {rule : Rule}
    (hh : d.handle leading rule = .ok d') : d'.Exclusive := by
  simp only [Discoverer.handle, bind_eq_ok_iff] at hh
  obtain ⟨⟨p, d₁⟩, hi, hh⟩ := hh
  cases hh
  have hs₁ : d₁.Sound := hs.install hi
  have hinstalled : d₁.publishCount.Exclusive :=
    (he.withdrawals hs (annotated_install hi) (install_withdrawals hi)).of_holds rfl
      fun _ _ hh => hh
  exact hinstalled.performLeading hs₁.publishCount leading fun c hc =>
    hs₁.isForeignCall_of_mem_apiServerCalls (KeyMap.mem_values_iff.mpr ⟨_, install_get? hi⟩) hc

theorem Sound.exclusive_step (hs : d.Sound) (he : d.Exclusive) (op : Operation) :
    (d.step op).Exclusive := by
  cases op with
  | handleAll leading rules => exact hs.exclusive_handleAll he leading rules
  | handle leading rule =>
    simp only [Discoverer.step]
    cases hh : d.handle leading rule with
    | error _ => exact he
    | ok d' => exact hs.exclusive_handle he hh
  | delete name => exact he.withdrawals hs (d.annotated_teardown name) (d.teardown_withdrawals name)
  | discover leading resource => exact hs.exclusive_discover he leading resource
  | deleteResource resource =>
    exact he.withdrawals hs (d.annotated_performAll _) (d.deleteResource_withdrawals resource)
  | deleteClusterScoped resources =>
    exact he.withdrawals hs
      ((annotated_performAll _ _).trans (d.annotated_deleteResources resources))
      ((d.deleteResources_withdrawals resources).trans (deleteResource_withdrawals _ _))
  | setAnnotationPolicy excludes disabled =>
    exact he.withdrawals hs (d.annotated_setAnnotationPolicy excludes disabled)
      (d.setAnnotationPolicy_withdrawals excludes disabled)
  | refreshApiServer leading =>
    refine he.performLeading hs leading fun c hc => ?_
    obtain ⟨p, hp, hc⟩ := List.mem_flatMap.mp hc
    exact hs.isForeignCall_of_mem_apiServerCalls hp hc
  | deleteAll => exact he.withdrawals hs (d.annotated_handleAll false []) d.deleteAll_withdrawals

theorem exclusive_start (settings : Settings) (nodeName : String) :
    (start settings nodeName).Exclusive := by
  have hnone : ∀ target, (start settings nodeName).roster.holds 0 target = false := fun _ => rfl
  constructor
  · intro target id hh
    rw [show (start settings nodeName).annotated = 0 from rfl, hnone] at hh
    cases hh
  · exact fun r _ => hnone r.targetName

theorem Sound.exclusive_run (hs : d.Sound) (he : d.Exclusive) (ops : List Operation) :
    (d.run ops).Exclusive := by
  induction ops generalizing d with
  | nil => exact he
  | cons op ops ih => exact ih (hs.step op) (hs.exclusive_step he op)

/-- Whatever is done in whatever order and with whatever leadership, no target that the handler of
    those that ask for themselves holds is held by a rule of any plugin type as well, and it never
    holds the target of the API server. -/
theorem not_holds_pipeline_of_annotated (settings : Settings) (nodeName : String)
    (ops : List Operation) :
    let d := (start settings nodeName).run ops
    (∀ target, d.roster.holds d.annotated target = true → ∀ p ∈ d.pipelines.values,
      d.roster.holds p.handler target = false) ∧
    ∀ r : Resource, r.kind = .apiServer → d.roster.holds d.annotated r.targetName = false := by
  intro d
  have hs : d.Sound := sound_run settings nodeName ops
  have he : d.Exclusive :=
    (sound_start settings nodeName).exclusive_run (exclusive_start settings nodeName) ops
  refine ⟨fun target hh p hp => ?_, he.aloof⟩
  rw [Bool.eq_false_iff]
  exact fun hheld => hs.handler_ne_annotated hp (he.alone target p.handler hh hheld)

end ScrapeDiscovery.Discoverer

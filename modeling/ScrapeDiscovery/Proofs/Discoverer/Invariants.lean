import ScrapeDiscovery.Proofs.Discoverer.Exclusion
import ScrapeDiscovery.Proofs.Discoverer.Phases

/-!
# What every operation keeps

An operation withdraws, or it performs calls, or it does the one and then the other. Its
calls are about the resource that it takes in or about the API server, and none is about a
rule for the handler of the targets that ask for themselves. So what holds after
withdrawing and after each such call holds after every operation, and in every state of
a run.

Results:
* `Invariant.performAll`, `Invariant.performLeading`: calls one after the other.
* `Invariant.step`, `Invariant.run`: every operation, and every run.
-/

namespace ScrapeDiscovery

/-- A call that is about no other resources than those of a set. -/
def HandlerCall.IsAbout (R : Resource → Prop) : HandlerCall → Prop
  | .delete .. => True
  | .handle _ resource _ | .annotate resource => R resource

namespace Discoverer

open Roster

variable {R : Resource → Prop} {P : Discoverer → Prop} {d d' : Discoverer}

/-! ## Calls -/

/-- A call that is not about a rule for the handler of the targets that ask for themselves. -/
def IsOrderly (d : Discoverer) (c : HandlerCall) : Prop :=
  ∀ id resource rule, c = .handle id resource rule → id ≠ d.annotated

theorem isOrderly_delete (d : Discoverer) (id : HandlerId) (target : String) :
    d.IsOrderly (.delete id target) := nofun

theorem isOrderly_annotate (d : Discoverer) (resource : Resource) :
    d.IsOrderly (.annotate resource) := nofun

theorem Sound.isOrderly_handle (hs : d.Sound) {p : Pipeline} (hp : p ∈ d.pipelines.values)
    (resource : Resource) (rule : Rule) : d.IsOrderly (.handle p.handler resource rule) := by
  rintro _ _ _ ⟨⟩
  exact hs.handler_ne_annotated hp

theorem IsForeignCall.isOrderly {c : HandlerCall} (hc : d.IsForeignCall c) : d.IsOrderly c := by
  obtain ⟨id, rule, rfl, hid⟩ := hc
  rintro _ _ _ ⟨⟩
  exact hid

/-- What rules ask without a resource being reported is about the API server. -/
theorem IsForeignCall.isAbout (hserver : R .apiServer) {c : HandlerCall}
    (hc : d.IsForeignCall c) : c.IsAbout R := by
  obtain ⟨id, rule, rfl, -⟩ := hc
  exact hserver

/-- What a resource asks of the handlers is orderly and about this resource. -/
theorem Sound.isOrderly_of_mem_calls (hs : d.Sound) {resource : Resource} (hresource : R resource) :
    ∀ c ∈ d.calls resource, d.IsOrderly c ∧ c.IsAbout R := by
  intro c hc
  rcases List.mem_append.mp hc with hc | hc
  · obtain ⟨id, -, rfl⟩ := List.mem_map.mp hc
    exact ⟨d.isOrderly_delete id _, trivial⟩
  split at hc
  · obtain rfl := List.mem_singleton.mp hc
    exact ⟨d.isOrderly_annotate resource, hresource⟩
  · rcases List.mem_cons.mp hc with rfl | hc
    · exact ⟨d.isOrderly_delete _ _, trivial⟩
    · obtain ⟨p, hp, rfl⟩ := List.mem_map.mp hc
      exact ⟨hs.isOrderly_handle (mem_claims_iff.mp hp).1 resource p.rule, hresource⟩

/-! ## Invariants -/

/-- What holds after withdrawing and after every orderly call about a resource of a set. -/
structure Invariant (R : Resource → Prop) (P : Discoverer → Prop) : Prop where
  withdrawals : ∀ {d d'}, d.Sound → P d → d'.annotated = d.annotated →
    Withdrawals d.roster d'.roster → P d'
  perform : ∀ {d c}, d.Sound → P d → d.IsOrderly c → c.IsAbout R → P (d.perform c)

namespace Invariant

theorem performAll (hi : Invariant R P) (hs : d.Sound) (hp : P d) {calls : List HandlerCall}
    (hcalls : ∀ c ∈ calls, d.IsOrderly c ∧ c.IsAbout R) : P (d.performAll calls) := by
  induction calls generalizing d with
  | nil => exact hp
  | cons c cs ih =>
    obtain ⟨horderly, habout⟩ := hcalls c List.mem_cons_self
    refine ih (hs.perform c) (hi.perform hs hp horderly habout) fun c' hc' => ?_
    rw [perform_eq]
    exact hcalls c' (List.mem_cons_of_mem _ hc')

/-- Calls about the API server are made where the agent leads. -/
theorem performLeading (hi : Invariant R P) (hserver : R .apiServer) (hs : d.Sound) (hp : P d)
    (leading : Bool) {calls : List HandlerCall} (hcalls : ∀ c ∈ calls, d.IsForeignCall c) :
    P (d.performLeading leading calls) := by
  unfold Discoverer.performLeading
  split
  · exact hi.performAll hs hp fun c hc => ⟨(hcalls c hc).isOrderly, (hcalls c hc).isAbout hserver⟩
  · exact hp

theorem publishCount (hi : Invariant R P) (hs : d.Sound) (hp : P d) : P d.publishCount :=
  hi.withdrawals hs hp rfl .refl

theorem handleAll (hi : Invariant R P) (hserver : R .apiServer) (hs : d.Sound) (hp : P d)
    (leading : Bool) (rules : List Rule) : P (d.handleAll leading rules).2 := by
  have hinstalled : (d.installation rules).discoverer.Sound := hs.installation rules
  have hkept : P (d.installation rules).discoverer :=
    hi.withdrawals hs hp (d.annotated_installation rules) (d.installation_withdrawals rules)
  have hperformed := hi.performLeading hserver hinstalled.publishCount
    (hi.publishCount hinstalled hkept) leading (hs.isForeignCall_installation rules)
  -- what is reported in the end is no more than a note
  exact hi.withdrawals (hinstalled.publishCount.performLeading leading _) hperformed rfl
    (.single (.retreat (.note _)))

theorem handle (hi : Invariant R P) (hserver : R .apiServer) (hs : d.Sound) (hp : P d)
    {leading : Bool} {rule : Rule} (hh : d.handle leading rule = .ok d') : P d' := by
  simp only [Discoverer.handle, bind_eq_ok_iff] at hh
  obtain ⟨⟨p, d₁⟩, hinstall, hh⟩ := hh
  cases hh
  have hs₁ : d₁.Sound := hs.install hinstall
  have hkept : P d₁ :=
    hi.withdrawals hs hp (annotated_install hinstall) (install_withdrawals hinstall)
  have hpipeline := KeyMap.mem_values_iff.mpr ⟨_, install_get? hinstall⟩
  exact hi.performLeading hserver hs₁.publishCount (hi.publishCount hs₁ hkept) leading fun _ hc =>
    hs₁.isForeignCall_of_mem_apiServerCalls hpipeline hc

theorem step (hi : Invariant R P) (hserver : R .apiServer) (hs : d.Sound) (hp : P d)
    {op : Operation} (hop : ∀ leading resource, op = .discover leading resource → R resource) :
    P (d.step op) := by
  cases op with
  | handleAll leading rules => exact hi.handleAll hserver hs hp leading rules
  | handle leading rule =>
    simp only [Discoverer.step]
    cases hh : d.handle leading rule with
    | error _ => exact hp
    | ok d' => exact hi.handle hserver hs hp hh
  | delete name =>
    exact hi.withdrawals hs hp (d.annotated_teardown name) (d.teardown_withdrawals name)
  | discover leading resource =>
    show P (d.discover leading resource)
    unfold Discoverer.discover
    split
    · exact hp
    · exact hi.performAll hs hp (hs.isOrderly_of_mem_calls (hop leading resource rfl))
  | deleteResource resource =>
    exact hi.withdrawals hs hp (d.annotated_performAll _) (d.deleteResource_withdrawals resource)
  | deleteClusterScoped resources =>
    exact hi.withdrawals hs hp
      ((annotated_performAll _ _).trans (d.annotated_deleteResources resources))
      ((d.deleteResources_withdrawals resources).trans (deleteResource_withdrawals _ _))
  | setAnnotationPolicy excludes disabled =>
    exact hi.withdrawals hs hp (d.annotated_setAnnotationPolicy excludes disabled)
      (d.setAnnotationPolicy_withdrawals excludes disabled)
  | refreshApiServer leading =>
    refine hi.performLeading hserver hs hp leading fun c hc => ?_
    obtain ⟨p, hpipeline, hc⟩ := List.mem_flatMap.mp hc
    exact hs.isForeignCall_of_mem_apiServerCalls hpipeline hc
  | deleteAll =>
    exact hi.withdrawals hs hp (d.annotated_handleAll false []) d.deleteAll_withdrawals

theorem run (hi : Invariant R P) (hserver : R .apiServer) (hs : d.Sound) (hp : P d)
    {ops : List Operation}
    (hops : ∀ leading resource, Operation.discover leading resource ∈ ops → R resource) :
    P (d.run ops) := by
  induction ops generalizing d with
  | nil => exact hp
  | cons op ops ih =>
    refine ih (hs.step op) (hi.step hserver hs hp ?_) fun leading resource hop =>
      hops leading resource (List.mem_cons_of_mem _ hop)
    rintro leading resource rfl
    exact hops leading resource List.mem_cons_self

end Invariant

end Discoverer

end ScrapeDiscovery

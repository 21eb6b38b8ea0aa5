import ScrapeDiscovery.Proofs.Discoverer.Claims
import ScrapeDiscovery.Proofs.Discoverer.Handover

/-!
# Targets that belong to the cluster

The targets of services and of the API server are for the leading agent only.
Without leadership no operation of a discoverer makes anybody hold one. With it,
they come from two places: a resource that is taken in brings its own target, and
rules for the API server bring the target of the API server.

Results:
* `Sound.gains_discover`: what taking a resource in may bring.
* `Sound.gains_handleAll`: what installing rules may bring.
* `Sound.not_holds_deleteClusterScoped`: what is gone with the resources of the cluster.
-/

namespace ScrapeDiscovery

/-- The target of a service or of the API server. -/
def IsClusterTarget (target : String) : Prop :=
  ∃ r : Resource, r.kind.isClusterScoped = true ∧ r.targetName = target

theorem isClusterTarget_apiServer : IsClusterTarget Resource.apiServer.targetName :=
  ⟨.apiServer, rfl, rfl⟩

/-- Every resource with such a target belongs to the cluster. -/
theorem IsClusterTarget.isClusterScoped {r : Resource} (ht : IsClusterTarget r.targetName) :
    r.kind.isClusterScoped = true := by
  obtain ⟨r', hr', he⟩ := ht
  rwa [← Resource.kind_eq_of_targetName_eq he]

namespace Discoverer

/-! ## Resources -/

theorem Sound.gains_discover {d : Discoverer} (hs : d.Sound) {leading : Bool}
    {resource : Resource} {target : String} (ht : IsClusterTarget target)
    (hh : (d.discover leading resource).Holds target) :
    d.Holds target ∨ leading = true ∧ resource.targetName = target := by
  by_cases hname : target = resource.targetName
  · subst hname
    cases leading with
    | true => exact Or.inr ⟨rfl, rfl⟩
    | false =>
      rw [discover_of_not_leading (ResourceKind.isClusterScoped_iff.mp ht.isClusterScoped)] at hh
      exact Or.inl hh
  · exact Or.inl ((hs.holds_discover hname).mp hh)

/-! ## Rules -/

theorem Sound.gains_performLeading {d : Discoverer} (hs : d.Sound)
    {leading : Bool} {calls : List HandlerCall} (hcalls : ∀ c ∈ calls, c.IsForApiServer)
    {target : String} (hh : (d.performLeading leading calls).Holds target) :
    d.Holds target ∨
      leading = true ∧ target = Resource.apiServer.targetName ∧ ∃ c, c ∈ calls := by
  by_cases hname : target = Resource.apiServer.targetName
  · cases leading with
    | false => exact Or.inl hh
    | true =>
      cases calls with
      | nil => exact Or.inl hh
      | cons c cs => exact Or.inr ⟨rfl, hname, c, List.mem_cons_self⟩
  · exact Or.inl ((hs.holds_performLeading hcalls hname).mp hh)

/-- Installing rules brings the target of the API server at most, and only if the agent leads and
    one of the rules is for the API server. -/
theorem Sound.gains_handleAll {d : Discoverer} (hs : d.Sound) {leading : Bool}
    {rules : List Rule} {target : String} (hh : (d.handleAll leading rules).2.Holds target) :
    d.Holds target ∨ leading = true ∧ target = Resource.apiServer.targetName ∧
      ∃ rule ∈ rules, rule.IsForApiServer := by
  let i₀ : Installation := { discoverer := (d.missing rules).foldl Discoverer.teardown d }
  let i : Installation := rules.foldl Installation.step i₀
  have hcleared : i₀.discoverer.Sound := hs.teardownAll (d.missing rules)
  have hi : i.discoverer.Sound := Sound.installAll hcleared rules
  have hfor : ∀ c ∈ i.calls, c.IsForApiServer :=
    isForApiServer_of_mem_installation (fun _ h => absurd h List.not_mem_nil) rules
  have hasked : ∀ c ∈ i.calls, i.discoverer.Asked rules c :=
    asked_installAll hcleared rules
  have hpublished : (i.discoverer.publishCount.performLeading leading i.calls).Holds target := hh
  rcases hi.publishCount.gains_performLeading hfor hpublished with
    hinstalled | ⟨hleading, hname, c, hc⟩
  · exact Or.inl (hs.holds_of_withdrawals hi
      ((d.teardownAll_withdrawals _).trans (installAll_withdrawals i₀ rules)) hinstalled)
  · obtain ⟨-, -, -, rule, hrule, hrule', -⟩ := hasked c hc
    exact Or.inr ⟨hleading, hname, rule, hrule, hrule'⟩

/-! ## Giving up -/

/-- With the resources of the cluster the target of the API server is given up. -/
theorem Sound.not_holds_deleteClusterScoped {d : Discoverer} (hs : d.Sound)
    (resources : List Resource) :
    ¬(d.deleteClusterScoped resources).Holds Resource.apiServer.targetName := by
  have hall : (resources.foldl Discoverer.deleteResource d).Sound := by
    induction resources generalizing d with
    | nil => exact hs
    | cons r rs ih => exact ih (hs.deleteResource r)
  exact fun hh => (hall.holds_deleteResource.mp hh).2 rfl

end Discoverer

end ScrapeDiscovery

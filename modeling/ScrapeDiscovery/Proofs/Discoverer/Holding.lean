import ScrapeDiscovery.Proofs.Discoverer.Calls

/-!
# Where held targets come from

Taking a resource in is about its own target only, and nothing else makes a
handler hold a target, but for the target of the API server. Deleting a resource
takes its target from everybody.

Results:
* `Sound.holds_discover`, `Sound.holds_handleAll`: what is held after the operations that may
  publish targets.
* `Sound.holds_deleteResource`, `Sound.holds_deleteClusterScoped`, `Sound.not_holds_deleteAll`:
  what is held after deletions.
-/

namespace ScrapeDiscovery.Discoverer

/-- Some installed handler holds a target. -/
def Holds (d : Discoverer) (target : String) : Prop :=
  ∃ id ∈ d.installed, d.roster.holds id target = true

theorem Sound.holds_iff {d : Discoverer} (hs : d.Sound) {target : String} :
    d.Holds target ↔ ∃ id config, d.roster.encoding id target = some config := by
  constructor
  · rintro ⟨id, -, hh⟩
    exact ⟨id, Roster.holds_iff_encoding.mp hh⟩
  · rintro ⟨id, config, he⟩
    have hh := Roster.holds_iff_encoding.mpr ⟨config, he⟩
    exact ⟨id, hs.mem_installed_of_holds hh, hh⟩

/-- The targets that are listed are the ones that are held. -/
theorem exists_mem_targets_iff {d : Discoverer} {target : String} :
    (∃ t ∈ d.targets, t.name = target) ↔ d.Holds target := by
  have hof : ∀ rule pluginType id, (∃ t ∈ d.targetsOf rule pluginType id, t.name = target) ↔
      d.roster.holds id target = true := by
    intro rule pluginType id
    simp only [targetsOf, List.mem_map, Prod.exists, Roster.holds, KeyMap.contains_iff]
    constructor
    · rintro ⟨t, ⟨k, config, he, rfl⟩, rfl⟩
      exact ⟨config, KeyMap.mem_toList_iff.mp he⟩
    · rintro ⟨config, he⟩
      exact ⟨_, ⟨target, config, KeyMap.mem_toList_iff.mpr he, rfl⟩, rfl⟩
  simp only [targets, List.mem_append, List.mem_flatMap]
  constructor
  · rintro ⟨t, ⟨p, hp, ht⟩ | ht, hname⟩
    · have hid : p.handler ∈ d.handlers := List.mem_map.mpr ⟨p, hp, rfl⟩
      exact ⟨p.handler, mem_installed.mpr (Or.inl hid), (hof _ _ _).mp ⟨t, ht, hname⟩⟩
    · exact ⟨d.annotated, mem_installed.mpr (Or.inr rfl), (hof _ _ _).mp ⟨t, ht, hname⟩⟩
  · rintro ⟨id, hid, hh⟩
    rcases mem_installed.mp hid with hid | rfl
    · obtain ⟨p, hp, rfl⟩ := List.mem_map.mp hid
      obtain ⟨t, ht, hname⟩ := (hof p.rule.name p.rule.pluginType p.handler).mpr hh
      exact ⟨t, Or.inl ⟨p, hp, ht⟩, hname⟩
    · obtain ⟨t, ht, hname⟩ := (hof annotatedRule annotatedType d.annotated).mpr hh
      exact ⟨t, Or.inr ht, hname⟩

/-! ## Publishing -/

/-- Calls about other targets give nobody a target. -/
theorem Sound.holds_performAll {d : Discoverer} (hs : d.Sound) {calls : List HandlerCall}
    {target : String} (hother : ∀ c ∈ calls, target ≠ c.target) :
    (d.performAll calls).Holds target ↔ d.Holds target := by
  rw [(hs.performAll calls).holds_iff, hs.holds_iff]
  refine exists_congr fun id => exists_congr fun config => ?_
  rw [hs.encoding_performAll_of_ne fun c hc h => hother c hc h.2]

theorem target_of_mem_calls {d : Discoverer} {resource : Resource} {c : HandlerCall}
    (hc : c ∈ d.calls resource) : c.target = resource.targetName := by
  rw [calls, List.mem_append] at hc
  rcases hc with hc | hc
  · obtain ⟨id, -, rfl⟩ := List.mem_map.mp hc
    rfl
  · split at hc
    · rw [List.mem_singleton.mp hc]
      rfl
    · rcases List.mem_cons.mp hc with rfl | hc
      · rfl
      · obtain ⟨p, -, rfl⟩ := List.mem_map.mp hc
        rfl

/-- Taking a resource in gives nobody another target than its own. -/
theorem Sound.holds_discover {d : Discoverer} (hs : d.Sound) {leading : Bool}
    {resource : Resource} {target : String} (hne : target ≠ resource.targetName) :
    (d.discover leading resource).Holds target ↔ d.Holds target := by
  unfold Discoverer.discover
  split
  · exact Iff.rfl
  · exact hs.holds_performAll fun c hc => (target_of_mem_calls hc).symm ▸ hne

theorem Sound.holds_performLeading {d : Discoverer} (hs : d.Sound) {leading : Bool}
    {calls : List HandlerCall} (hcalls : ∀ c ∈ calls, c.IsForApiServer) {target : String}
    (hne : target ≠ Resource.apiServer.targetName) :
    (d.performLeading leading calls).Holds target ↔ d.Holds target := by
  unfold Discoverer.performLeading
  split
  · refine hs.holds_performAll fun c hc => ?_
    obtain ⟨id, rule, rfl⟩ := hcalls c hc
    exact hne
  · exact Iff.rfl

theorem Sound.holds_refreshApiServer {d : Discoverer} (hs : d.Sound) {leading : Bool}
    {target : String} (hne : target ≠ Resource.apiServer.targetName) :
    (d.refreshApiServer leading).Holds target ↔ d.Holds target := by
  refine hs.holds_performLeading (fun c hc => ?_) hne
  obtain ⟨p, -, hc⟩ := List.mem_flatMap.mp hc
  exact isForApiServer_of_mem_apiServerCalls hc

/-! ## Withdrawing -/

theorem Sound.holds_of_withdrawals {d d' : Discoverer} (hs : d.Sound) (hs' : d'.Sound)
    (hw : Roster.Withdrawals d.roster d'.roster) {target : String} (hh : d'.Holds target) :
    d.Holds target := by
  obtain ⟨id, config, he⟩ := hs'.holds_iff.mp hh
  exact hs.holds_iff.mpr ⟨id, config, Roster.Withdrawals.encoding hs.consistent hw he⟩

/-- Installing rules gives nobody another target than the one of the API server. -/
theorem Sound.holds_handleAll {d : Discoverer} (hs : d.Sound) {leading : Bool}
    {rules : List Rule} {target : String} (hne : target ≠ Resource.apiServer.targetName)
    (hh : (d.handleAll leading rules).2.Holds target) : d.Holds target := by
  let i : Installation := { discoverer := (d.missing rules).foldl Discoverer.teardown d }
  have hi : (rules.foldl Installation.step i).discoverer.Sound :=
    Sound.installAll (hs.teardownAll (d.missing rules)) rules
  have hcalls : ∀ c ∈ (rules.foldl Installation.step i).calls, c.IsForApiServer :=
    isForApiServer_of_mem_installation (fun _ h => absurd h List.not_mem_nil) rules
  have hinstalled : (rules.foldl Installation.step i).discoverer.Holds target :=
    (hi.publishCount.holds_performLeading hcalls hne).mp hh
  exact hs.holds_of_withdrawals hi
    ((d.teardownAll_withdrawals _).trans (installAll_withdrawals i rules)) hinstalled

theorem Sound.holds_setAnnotationPolicy {d : Discoverer} (hs : d.Sound)
    {excludes : List Selectors} {disabled : Bool} {target : String}
    (hh : (d.setAnnotationPolicy excludes disabled).Holds target) : d.Holds target :=
  hs.holds_of_withdrawals (hs.setAnnotationPolicy excludes disabled)
    (d.setAnnotationPolicy_withdrawals excludes disabled) hh

/-! ## Deleting -/

theorem deleteResource_eq (d : Discoverer) (resource : Resource) :
    d.deleteResource resource =
      d.performAll (d.installed.map (.delete · resource.targetName)) := by
  simp [deleteResource, installed]

theorem Sound.deleteResource {d : Discoverer} (hs : d.Sound) (resource : Resource) :
    (d.deleteResource resource).Sound := hs.performAll _

/-- Deleting a resource takes its target from everybody, and no other target from anybody. -/
theorem Sound.holds_deleteResource {d : Discoverer} (hs : d.Sound) {resource : Resource}
    {target : String} :
    (d.deleteResource resource).Holds target ↔ d.Holds target ∧ target ≠ resource.targetName := by
  have henc : ∀ i, (d.deleteResource resource).roster.encoding i target =
      if i ∈ d.installed ∧ target = resource.targetName then none
      else d.roster.encoding i target := by
    intro i
    rw [deleteResource_eq]
    exact hs.encoding_performAll_deletes d.installed resource.targetName i target
  rw [(hs.deleteResource resource).holds_iff]
  constructor
  · rintro ⟨i, config, he⟩
    rw [henc] at he
    split_ifs at he with hgone
    have hh := Roster.holds_iff_encoding.mpr ⟨config, he⟩
    have hi := hs.mem_installed_of_holds hh
    exact ⟨⟨i, hi, hh⟩, fun ht => hgone ⟨hi, ht⟩⟩
  · rintro ⟨⟨i, -, hh⟩, hne⟩
    obtain ⟨config, he⟩ := Roster.holds_iff_encoding.mp hh
    exact ⟨i, config, (henc i).trans ((if_neg fun h => hne h.2).trans he)⟩

theorem Sound.holds_deleteResources {d : Discoverer} (hs : d.Sound) {resources : List Resource}
    {target : String} :
    (resources.foldl Discoverer.deleteResource d).Holds target ↔
      d.Holds target ∧ ∀ r ∈ resources, target ≠ r.targetName := by
  induction resources generalizing d with
  | nil => simp
  | cons r rs ih =>
    refine (ih (hs.deleteResource r)).trans ?_
    rw [hs.holds_deleteResource, List.forall_mem_cons, and_assoc]

theorem Sound.holds_deleteClusterScoped {d : Discoverer} (hs : d.Sound)
    {resources : List Resource} {target : String}
    (hh : (d.deleteClusterScoped resources).Holds target) :
    d.Holds target ∧ ∀ r ∈ resources, target ≠ r.targetName := by
  have hall : (resources.foldl Discoverer.deleteResource d).Sound := by
    induction resources generalizing d with
    | nil => exact hs
    | cons r rs ih => exact ih (hs.deleteResource r) hh
  exact hs.holds_deleteResources.mp (hall.holds_deleteResource.mp hh).1

theorem pipelines_teardown (d : Discoverer) (name k : String) :
    (d.teardown name).pipelines.get? k = if k = name then none else d.pipelines.get? k :=
  d.delete_pipelines name k

theorem pipelines_teardownAll (d : Discoverer) (names : List String) (k : String) :
    (names.foldl teardown d).pipelines.get? k =
      if k ∈ names then none else d.pipelines.get? k := by
  induction names generalizing d with
  | nil => simp
  | cons name names ih =>
    refine (ih (d.teardown name)).trans ?_
    rw [pipelines_teardown]
    by_cases hk : k ∈ names <;> by_cases hn : k = name <;> simp [hk, hn]

/-- Deleting everything removes every rule. -/
theorem pipelines_deleteAll (d : Discoverer) : d.deleteAll.pipelines = ∅ := by
  refine KeyMap.ext_get? fun k => ?_
  refine (d.pipelines_teardownAll (d.missing []) k).trans ?_
  split_ifs with hk
  · rfl
  · -- every installed rule is missing from the empty list
    by_contra hsome
    obtain ⟨p, hp⟩ := Option.ne_none_iff_exists'.mp hsome
    refine hk (List.mem_filter.mpr ⟨KeyMap.mem_keys_iff.mpr ⟨p, hp⟩, ?_⟩)
    rfl

/-- Nothing is held any longer once everything was deleted. -/
theorem Sound.not_holds_deleteAll {d : Discoverer} (hs : d.Sound) (target : String) :
    ¬d.deleteAll.Holds target := by
  rintro ⟨id, hid, hh⟩
  let d₁ : Discoverer := (d.handleAll false []).2
  have hs₁ : d₁.Sound := hs.handleAll false []
  have hall : d.deleteAll.roster = d₁.roster.dismiss d₁.annotated fun _ => true := rfl
  rw [hall, Roster.holds_dismiss] at hh
  rcases mem_installed.mp (hs₁.mem_installed_of_holds hh.1) with hin | rfl
  · obtain ⟨k, p, hp, -⟩ := mem_handlers.mp hin
    have hnone : d₁.pipelines = ∅ := d.pipelines_deleteAll
    rw [hnone] at hp
    cases hp
  · exact hh.2 ⟨rfl, rfl⟩

end ScrapeDiscovery.Discoverer

import ScrapeDiscovery.Proofs.Cluster.Objects
import ScrapeDiscovery.Proofs.Discoverer.Holding
import ScrapeDiscovery.Proofs.Discoverer.Precedence

/-!
# Holding only what is claimed

Taking a resource in takes its target from every rule that does not claim it, also
where no rule claims it and the resource may ask for itself. It is about that
target only. So after resources were taken in one after the other, whatever a
rule holds of their targets is the target of one that the rule claims. And if some
rule claims a resource and can encode it, somebody holds its target: that rule, or
a rival of its registry that has owned the target before.

Results:
* `Sound.not_holds_discover`: no rule without a claim holds the target afterwards.
* `Sound.isMatch_of_holds_discoverAll`: the same after several resources.
* `Sound.holds_discover_of_encode?`: somebody holds the target of a claimed resource afterwards.
* `Sound.holds_discoverAll_of_encode?`: the same after several resources.
-/

namespace ScrapeDiscovery

namespace Discoverer

theorem pipelines_discover (d : Discoverer) (leading : Bool) (resource : Resource) :
    (d.discover leading resource).pipelines = d.pipelines := by
  unfold discover
  split
  · rfl
  · exact (performAll_pipelines d _).1

/-- A resource that is taken in belongs to the cluster only if the agent leads. -/
theorem isClusterScoped_imp_of_not {leading : Bool} {resource : Resource}
    (hin : ¬(resource.kind.isClusterScoped && !leading) = true) :
    resource.kind.isClusterScoped = true → leading = true := by
  intro hk
  rw [hk, Bool.true_and, Bool.not_eq_true', Bool.not_eq_false] at hin
  exact hin

/-- Taking a resource in is about its own target. -/
theorem Sound.encoding_discover_of_ne {d : Discoverer} (hs : d.Sound) {leading : Bool}
    {resource : Resource} {target : String} (hne : target ≠ resource.targetName)
    (i : HandlerId) :
    (d.discover leading resource).roster.encoding i target = d.roster.encoding i target := by
  unfold Discoverer.discover
  split
  · rfl
  · exact hs.encoding_performAll_of_ne fun c hc h => hne (h.2.trans (target_of_mem_calls hc))

/-- No rule holds the target of a resource that was just taken in and that it does not claim. -/
theorem Sound.not_holds_discover {d : Discoverer} (hs : d.Sound) {leading : Bool}
    {resource : Resource} (hleading : resource.kind.isClusterScoped = true → leading = true)
    {p : Pipeline} (hp : p ∈ d.pipelines.values) (hmatch : p.filter.isMatch resource = false) :
    (d.discover leading resource).roster.holds p.handler resource.targetName = false := by
  have hin : (resource.kind.isClusterScoped && !leading) = false := by
    cases hk : resource.kind.isClusterScoped with
    | false => rfl
    | true => rw [hleading hk]; rfl
  let given := d.performAll ((d.strays resource).map (.delete · resource.targetName))
  have hgiven : given.Sound := hs.performAll _
  have hannotated : given.annotated = d.annotated := by
    show (d.performAll _).annotated = d.annotated
    rw [performAll_eq]
  -- after the strays gave the target up, no call is for the handler of the rule
  have hframe : (d.discover leading resource).roster.encoding p.handler resource.targetName =
      given.roster.encoding p.handler resource.targetName := by
    rw [Discoverer.discover, hin, calls, performAll_append]
    refine hgiven.encoding_performAll_of_ne fun c hc hreached => ?_
    rw [hannotated] at hreached
    split at hc
    · rw [List.mem_singleton.mp hc] at hreached
      exact hs.handler_ne_annotated hp hreached.1
    · rcases List.mem_cons.mp hc with rfl | hc
      · exact hs.handler_ne_annotated hp hreached.1
      · obtain ⟨q, hq, rfl⟩ := List.mem_map.mp hc
        obtain ⟨hq, hclaim⟩ := mem_claims_iff.mp hq
        rw [← hs.eq_of_handler_eq hp hq hreached.1, hmatch] at hclaim
        cases hclaim
  rw [Bool.eq_false_iff, Ne, Roster.holds_iff_encoding, hframe,
    hs.encoding_performAll_deletes]
  rintro ⟨config, he⟩
  split_ifs at he with hstray
  have hh : d.roster.holds p.handler resource.targetName = true :=
    Roster.holds_iff_encoding.mpr ⟨config, he⟩
  exact hstray ⟨(hs.handler_mem_strays hp resource).mpr ⟨hmatch, hh⟩, rfl⟩

/-! ## Several resources -/

/-- Takes resources in, one after the other. -/
def discoverAll (d : Discoverer) (leading : Bool) (resources : List Resource) : Discoverer :=
  resources.foldl (·.discover leading ·) d

theorem pipelines_discoverAll (d : Discoverer) (leading : Bool) (resources : List Resource) :
    (d.discoverAll leading resources).pipelines = d.pipelines := by
  induction resources generalizing d with
  | nil => rfl
  | cons r rs ih => exact (ih (d.discover leading r)).trans (d.pipelines_discover leading r)

theorem Sound.encoding_discoverAll_of_ne {d : Discoverer} (hs : d.Sound) (leading : Bool)
    {resources : List Resource} {target : String}
    (hne : ∀ r ∈ resources, r.targetName ≠ target) (i : HandlerId) :
    (d.discoverAll leading resources).roster.encoding i target = d.roster.encoding i target := by
  induction resources generalizing d with
  | nil => rfl
  | cons r rs ih =>
    have hrest := ih (hs.discover leading r) fun r' hr' => hne r' (List.mem_cons_of_mem _ hr')
    exact hrest.trans (hs.encoding_discover_of_ne (hne r List.mem_cons_self).symm i)

/-- Of the targets of resources that were taken in a rule holds only those it claims. -/
theorem Sound.isMatch_of_holds_discoverAll {d : Discoverer} (hs : d.Sound) {leading : Bool}
    {resources : List Resource}
    (hleading : ∀ r ∈ resources, r.kind.isClusterScoped = true → leading = true)
    {p : Pipeline} (hp : p ∈ d.pipelines.values) {target : String}
    (hh : (d.discoverAll leading resources).roster.holds p.handler target = true)
    (hin : ∃ r ∈ resources, r.targetName = target) :
    ∃ r ∈ resources, r.targetName = target ∧ p.filter.isMatch r = true := by
  induction resources generalizing d with
  | nil =>
    obtain ⟨r, hr, -⟩ := hin
    cases hr
  | cons r rs ih =>
    have hs' := hs.discover leading r
    by_cases hlater : ∃ r' ∈ rs, r'.targetName = target
    · have hp' : p ∈ (d.discover leading r).pipelines.values := by
        rwa [pipelines_discover]
      obtain ⟨r', hr', hclaimed⟩ :=
        ih hs' (fun r' hr' => hleading r' (List.mem_cons_of_mem _ hr')) hp' hh hlater
      exact ⟨r', List.mem_cons_of_mem _ hr', hclaimed⟩
    · -- what follows is about other targets
      obtain ⟨r', hr', hname⟩ := hin
      rcases List.mem_cons.mp hr' with rfl | hr'
      · refine ⟨r', List.mem_cons_self, hname, ?_⟩
        have hlast := hs'.encoding_discoverAll_of_ne leading
          (fun r hr he => hlater ⟨r, hr, he⟩) p.handler
        have hheld : (d.discover leading r').roster.holds p.handler r'.targetName = true := by
          obtain ⟨config, he⟩ := Roster.holds_iff_encoding.mp hh
          rw [hname]
          exact Roster.holds_iff_encoding.mpr ⟨config, hlast.symm.trans he⟩
        by_contra hmatch
        have hnot : (d.discover leading r').roster.holds p.handler r'.targetName = false :=
          hs.not_holds_discover (hleading r' List.mem_cons_self) hp (Bool.eq_false_iff.mpr hmatch)
        rw [hnot] at hheld
        cases hheld
      · exact absurd ⟨r', hr', hname⟩ hlater

/-! ## Claimed resources are held -/

theorem Sound.discover_keeps {d : Discoverer} (hs : d.Sound) (leading : Bool)
    (resource : Resource) : d.roster.Keeps (d.discover leading resource).roster := by
  unfold Discoverer.discover
  split
  · exact .refl hs.consistent
  · exact hs.performAll_keeps _

theorem Sound.performLeading_keeps {d : Discoverer} (hs : d.Sound) (leading : Bool)
    (calls : List HandlerCall) : d.roster.Keeps (d.performLeading leading calls).roster := by
  unfold Discoverer.performLeading
  split
  · exact hs.performAll_keeps calls
  · exact .refl hs.consistent

theorem Sound.discoverAll {d : Discoverer} (hs : d.Sound) (leading : Bool)
    (resources : List Resource) : (d.discoverAll leading resources).Sound :=
  List.foldlRecOn resources _ hs fun _ hd r _ => hd.discover leading r

theorem Sound.discoverAll_keeps {d : Discoverer} (hs : d.Sound) (leading : Bool)
    (resources : List Resource) : d.roster.Keeps (d.discoverAll leading resources).roster := by
  induction resources generalizing d with
  | nil => exact .refl hs.consistent
  | cons r rs ih => exact (hs.discover_keeps leading r).trans (ih (hs.discover leading r))

/-- A handler that is asked for a target and can encode it leaves it with an owner, and nobody who
    is asked takes it from the one that it has. -/
theorem Sound.owner?_isSome_perform_handle {d : Discoverer} (hs : d.Sound) {p : Pipeline}
    (hp : p ∈ d.pipelines.values) (resource : Resource) (rule : Rule) (registry : String)
    (howned : (d.roster.owner? registry resource.targetName).isSome = true ∨
      d.roster.registryOf? p.handler = some registry ∧
        (d.encode? { p with rule } resource).isSome = true) :
    ((d.perform (.handle p.handler resource rule)).roster.owner? registry
      resource.targetName).isSome = true := by
  obtain ⟨h, hid, hopen, hfamily⟩ := hs.ready hp
  have hafter := Roster.owner?_handle hs.consistent hid hopen hfamily resource (some rule) registry
  have henc : d.encode? { p with rule } resource = h.encode? resource (some rule) :=
    encode?_eq (p := { p with rule }) hid resource
  refine (congrArg Option.isSome hafter).trans ?_
  rw [henc, Roster.registryOf?_eq_some_iff] at howned
  rcases howned with howned | ⟨⟨h', hid', rfl⟩, henc⟩
  · split
    · rw [Option.isSome_or, howned, Bool.true_or]
    · exact howned
  · obtain rfl : h = h' := Option.some.inj (hid.symm.trans hid')
    rw [if_pos ⟨rfl, henc⟩, Option.isSome_or, Option.isSome_some, Bool.or_true]

theorem Sound.owner?_isSome_served {d : Discoverer} (hs : d.Sound) {ps : List Pipeline}
    (hps : ∀ p ∈ ps, p ∈ d.pipelines.values) (resource : Resource) {registry : String}
    (howned : (d.roster.owner? registry resource.targetName).isSome = true ∨
      ∃ p ∈ ps, d.roster.registryOf? p.handler = some registry ∧
        (d.encode? p resource).isSome = true) :
    ((d.served resource ps).roster.owner? registry resource.targetName).isSome = true := by
  induction ps generalizing d with
  | nil =>
    refine howned.resolve_right ?_
    rintro ⟨p, hp, -⟩
    cases hp
  | cons p ps ih =>
    have hk := hs.perform_keeps (.handle p.handler resource p.rule)
    have hstep :=
      hs.owner?_isSome_perform_handle (hps p List.mem_cons_self) resource p.rule registry
    refine ih (hs.perform (.handle p.handler resource p.rule))
      (fun q hq => hps q (List.mem_cons_of_mem _ hq)) ?_
    rcases howned with howned | ⟨q, hq, hclaim⟩
    · exact Or.inl (hstep (Or.inl howned))
    · rcases List.mem_cons.mp hq with rfl | hq
      · exact Or.inl (hstep (Or.inr hclaim))
      · rw [← hk.registryOf?_eq, ← encode?_of_keeps hk] at hclaim
        exact Or.inr ⟨q, hq, hclaim⟩

/-- Somebody holds the target of a resource that was just taken in and that a rule claims and can
    encode. -/
theorem Sound.holds_discover_of_encode? {d : Discoverer} (hs : d.Sound) {leading : Bool}
    {resource : Resource} (hleading : resource.kind.isClusterScoped = true → leading = true)
    {p : Pipeline} (hp : p ∈ d.pipelines.values) (hmatch : p.filter.isMatch resource = true)
    (henc : (d.encode? p resource).isSome = true) :
    (d.discover leading resource).Holds resource.targetName := by
  have hs' : (d.discover leading resource).Sound := hs.discover leading resource
  have hclaim : p ∈ d.claims resource := mem_claims_iff.mpr ⟨hp, hmatch⟩
  have hk := hs.cleared_keeps resource
  obtain ⟨h, hid, -⟩ := hs.ready hp
  have hreg : d.roster.registryOf? p.handler = some h.registry :=
    Roster.registryOf?_eq_some_iff.mpr ⟨h, hid, rfl⟩
  have howned := (hs.cleared resource).owner?_isSome_served (fun q => mem_pipelines_cleared)
    resource (Or.inr ⟨p, hclaim, (hk.registryOf?_eq _).trans hreg,
      (congrArg Option.isSome (encode?_of_keeps hk p resource)).trans henc⟩)
  rw [← discover_eq_served hleading (List.ne_nil_of_mem hclaim)] at howned
  obtain ⟨i, hi⟩ := Option.isSome_iff_exists.mp howned
  have hh := ((hs'.consistent _ _ _).mp hi).2
  exact ⟨i, hs'.mem_installed_of_holds hh, hh⟩

/-- The target of a resource that was taken in among others is held if a rule claims the resource
    and can encode it. -/
theorem Sound.holds_discoverAll_of_encode? {d : Discoverer} (hs : d.Sound) {leading : Bool}
    {resources : List Resource} {resource : Resource} (hin : resource ∈ resources)
    (hsame : ∀ r ∈ resources, r.targetName = resource.targetName → r = resource)
    (hleading : resource.kind.isClusterScoped = true → leading = true)
    {p : Pipeline} (hp : p ∈ d.pipelines.values) (hmatch : p.filter.isMatch resource = true)
    (henc : (d.encode? p resource).isSome = true) :
    (d.discoverAll leading resources).Holds resource.targetName := by
  induction resources generalizing d with
  | nil => cases hin
  | cons r rs ih =>
    have hs' : (d.discover leading r).Sound := hs.discover leading r
    by_cases hlater : resource ∈ rs
    · refine ih hs' hlater (fun r' hr' => hsame r' (List.mem_cons_of_mem _ hr')) ?_ ?_
      · rwa [pipelines_discover]
      · rwa [encode?_of_keeps (hs.discover_keeps leading r)]
    · -- what follows is about other targets
      obtain rfl : resource = r := (List.mem_cons.mp hin).resolve_right hlater
      have hother : ∀ r' ∈ rs, r'.targetName ≠ resource.targetName := fun r' hr' he =>
        hlater (hsame r' (List.mem_cons_of_mem _ hr') he ▸ hr')
      obtain ⟨i, config, henc⟩ :=
        hs'.holds_iff.mp (hs.holds_discover_of_encode? hleading hp hmatch henc)
      refine (hs'.discoverAll leading rs).holds_iff.mpr ⟨i, config, ?_⟩
      rw [hs'.encoding_discoverAll_of_ne leading hother, henc]

end Discoverer

end ScrapeDiscovery

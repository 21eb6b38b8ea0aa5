import ScrapeDiscovery.Proofs.Discoverer.Calls

/-!
# Who holds the target of a claimed resource

The rules that claim a resource are rivals within each registry. Taking the
resource in first takes its target from everybody who has no claim, and then
asks the rivals in the order of the names of their rules. The one that owned the
target before keeps it; otherwise the first one gets it.

Results:
* `Sound.owner?_performAll_handles`: who owns a target after the claims were served in turn.
* `Sound.encoding_performAll_handles`: what a claiming handler then holds of it.
* `exists_unique_holder_discover`: the outcome for every registry and every state of a run.
-/

namespace ScrapeDiscovery.Discoverer

/-- The encoding of a resource by the handler of a pipeline under its rule, if it has one. -/
def encode? (d : Discoverer) (p : Pipeline) (resource : Resource) : Option ScrapeConfig :=
  (d.roster.handler? p.handler).bind (·.encode? resource (some p.rule))

/-- The pipelines of a registry that claim a resource, by the names of their rules. -/
def rivals (d : Discoverer) (resource : Resource) (registry : String) : List Pipeline :=
  (d.claims resource).filter fun p => d.roster.registryOf? p.handler = some registry

theorem mem_rivals {d : Discoverer} {resource : Resource} {registry : String} {p : Pipeline} :
    p ∈ d.rivals resource registry ↔ p ∈ d.pipelines.values ∧
      p.filter.isMatch resource = true ∧ d.roster.registryOf? p.handler = some registry := by
  rw [rivals, List.mem_filter, mem_claims_iff, decide_eq_true_iff, and_assoc]

/-! ## Pipelines and their handlers -/

theorem encode?_eq {d : Discoverer} {p : Pipeline} {h : TargetHandler}
    (hid : d.roster.handler? p.handler = some h) (resource : Resource) :
    d.encode? p resource = h.encode? resource (some p.rule) := by
  rw [encode?, hid, Option.bind_some]

theorem encode?_of_keeps {d d' : Discoverer} (hk : d.roster.Keeps d'.roster) (p : Pipeline)
    (resource : Resource) : d'.encode? p resource = d.encode? p resource := by
  have hb := hk.blank p.handler
  unfold encode?
  cases hid : d.roster.handler? p.handler with
  | none =>
    rw [hid] at hb
    rw [Option.map_eq_none_iff.mp hb]
  | some h =>
    rw [hid, Option.map_some, Option.map_eq_some_iff] at hb
    obtain ⟨h', hid', hb⟩ := hb
    have henc := congrArg (·.encode? resource (some p.rule)) hb
    rw [hid', Option.bind_some, Option.bind_some]
    exact henc

theorem Sound.eq_of_handler_eq {d : Discoverer} (hs : d.Sound) {p q : Pipeline}
    (hp : p ∈ d.pipelines.values) (hq : q ∈ d.pipelines.values) (he : p.handler = q.handler) :
    p = q := by
  obtain ⟨k, hp⟩ := KeyMap.mem_values_iff.mp hp
  obtain ⟨k', hq⟩ := KeyMap.mem_values_iff.mp hq
  obtain rfl := hs.distinct k k' p q hp hq he
  exact Option.some.inj (hp.symm.trans hq)

theorem Sound.handler_ne_annotated {d : Discoverer} (hs : d.Sound) {p : Pipeline}
    (hp : p ∈ d.pipelines.values) : p.handler ≠ d.annotated := by
  obtain ⟨k, hp⟩ := KeyMap.mem_values_iff.mp hp
  exact hs.apart k p hp

/-- The pipelines stand in the order of the names of their rules. -/
theorem Sound.values_pairwise {d : Discoverer} (hs : d.Sound) :
    d.pipelines.values.Pairwise fun p q => p.rule.name < q.rule.name := by
  refine List.pairwise_map.mpr (d.pipelines.sorted.imp_of_mem ?_)
  rintro ⟨k, p⟩ ⟨k', p'⟩ hp hp' hlt
  rw [hs.named k p (KeyMap.mem_toList_iff.mp hp), hs.named k' p' (KeyMap.mem_toList_iff.mp hp')]
  exact hlt

theorem Sound.handler_mem_strays {d : Discoverer} (hs : d.Sound) {p : Pipeline}
    (hp : p ∈ d.pipelines.values) (resource : Resource) :
    p.handler ∈ d.strays resource ↔ p.filter.isMatch resource = false ∧
      d.roster.holds p.handler resource.targetName = true := by
  simp only [strays, List.mem_map, List.mem_filter, Bool.and_eq_true, Bool.not_eq_true']
  constructor
  · rintro ⟨q, ⟨hq, hstray⟩, he⟩
    rwa [hs.eq_of_handler_eq hq hp he] at hstray
  · intro hstray
    exact ⟨p, ⟨hp, hstray⟩, rfl⟩

/-! ## Serving claims in turn -/

/-- The state after pipelines were asked in turn to bring the target of a resource up to date. -/
def served (d : Discoverer) (resource : Resource) (ps : List Pipeline) : Discoverer :=
  d.performAll (ps.map fun p => .handle p.handler resource p.rule)

/-- What one claim does to the owner of the target. -/
theorem Sound.owner?_perform_handle {d : Discoverer} (hs : d.Sound) {p : Pipeline}
    (hp : p ∈ d.pipelines.values) (resource : Resource) {registry : String}
    (henc : d.roster.registryOf? p.handler = some registry → (d.encode? p resource).isSome = true) :
    (d.perform (.handle p.handler resource p.rule)).roster.owner? registry resource.targetName =
      if d.roster.registryOf? p.handler = some registry then
        (d.roster.owner? registry resource.targetName).or (some p.handler)
      else d.roster.owner? registry resource.targetName := by
  obtain ⟨h, hid, hopen, hfamily⟩ := hs.ready hp
  have hreg : d.roster.registryOf? p.handler = some h.registry :=
    Roster.registryOf?_eq_some_iff.mpr ⟨h, hid, rfl⟩
  rw [encode?_eq hid, hreg, Option.some_inj] at henc
  refine (Roster.owner?_handle hs.consistent hid hopen hfamily resource (some p.rule)
    registry).trans (if_congr ?_ rfl rfl)
  rw [hreg, Option.some_inj]
  exact ⟨fun h => h.1.symm, fun he => ⟨he.symm, henc he⟩⟩

/-- After the claims were served in turn the owner is the one there was, and otherwise the first
    whose handler is attached to the registry. -/
theorem Sound.owner?_performAll_handles {d : Discoverer} (hs : d.Sound) {ps : List Pipeline}
    (hps : ∀ p ∈ ps, p ∈ d.pipelines.values) (resource : Resource) {registry : String}
    (henc : ∀ p ∈ ps, d.roster.registryOf? p.handler = some registry →
      (d.encode? p resource).isSome = true) :
    (d.served resource ps).roster.owner? registry resource.targetName =
      (d.roster.owner? registry resource.targetName).or
        ((ps.find? fun p => d.roster.registryOf? p.handler = some registry).map (·.handler)) := by
  induction ps generalizing d with
  | nil => exact (Option.or_none).symm
  | cons p ps ih =>
    let d₁ := d.perform (.handle p.handler resource p.rule)
    have hk : d.roster.Keeps d₁.roster := hs.perform_keeps (.handle p.handler resource p.rule)
    have hfirst := hs.owner?_perform_handle (hps p List.mem_cons_self) resource
      (henc p List.mem_cons_self)
    have hrest := ih (hs.perform (.handle p.handler resource p.rule))
      (fun q hq => hps q (List.mem_cons_of_mem _ hq)) fun q hq hreg => by
        rw [encode?_of_keeps hk]
        rw [hk.registryOf?_eq] at hreg
        exact henc q (List.mem_cons_of_mem _ hq) hreg
    refine hrest.trans ?_
    simp only [hk.registryOf?_eq, d₁] at hfirst ⊢
    rw [hfirst, List.find?_cons]
    by_cases hreg : d.roster.registryOf? p.handler = some registry
    · simp [hreg]
    · simp [hreg]

/-- A claiming handler that holds the target after the claims were served in turn has encoded the
    resource under its rule. -/
theorem Sound.encoding_performAll_handles {d : Discoverer} (hs : d.Sound) {ps : List Pipeline}
    (hps : ∀ p ∈ ps, p ∈ d.pipelines.values) {resource : Resource} {q : Pipeline} (hq : q ∈ ps)
    (henc : (d.encode? q resource).isSome = true)
    (hh : (d.served resource ps).roster.holds q.handler resource.targetName = true) :
    (d.served resource ps).roster.encoding q.handler resource.targetName =
      d.encode? q resource := by
  induction ps generalizing d with
  | nil => cases hq
  | cons p ps ih =>
    let call : HandlerCall := .handle p.handler resource p.rule
    have hs' : (d.perform call).Sound := hs.perform call
    have hk : d.roster.Keeps (d.perform call).roster := hs.perform_keeps call
    have hps' : ∀ p ∈ ps, p ∈ d.pipelines.values := fun p hp => hps p (List.mem_cons_of_mem _ hp)
    by_cases hlater : q ∈ ps
    · rw [← encode?_of_keeps hk q resource]
      refine ih hs' hps' hlater ?_ hh
      rwa [encode?_of_keeps hk]
    -- from here on no call is for the handler of `q`
    obtain rfl : q = p := (List.mem_cons.mp hq).resolve_right hlater
    have hframe : (d.served resource (q :: ps)).roster.encoding q.handler resource.targetName =
        (d.perform call).roster.encoding q.handler resource.targetName := by
      refine hs'.encoding_performAll_of_ne fun c hc hcq => ?_
      obtain ⟨p', hp', rfl⟩ := List.mem_map.mp hc
      exact hlater (hs.eq_of_handler_eq (hps q hq) (hps' p' hp') hcq.1 ▸ hp')
    obtain ⟨h, hid, hopen, hfamily⟩ := hs.ready (hps q hq)
    obtain ⟨config, henc⟩ := Option.isSome_iff_exists.mp henc
    obtain ⟨config', hheld⟩ := Roster.holds_iff_encoding.mp hh
    rw [hheld, henc, Roster.config_eq_of_encoding_handle hs.consistent hid hopen hfamily
      ((encode?_eq hid resource).symm.trans henc) (hframe.symm.trans hheld)]

/-! ## Taking a claimed resource in -/

/-- The state after everybody without a claim has given up the target of a claimed resource. -/
def cleared (d : Discoverer) (resource : Resource) : Discoverer :=
  d.performAll ((d.strays resource ++ [d.annotated]).map (.delete · resource.targetName))

theorem discover_eq_served {d : Discoverer} {leading : Bool} {resource : Resource}
    (hleading : resource.kind.isClusterScoped = true → leading = true)
    (hclaimed : d.claims resource ≠ []) :
    d.discover leading resource = (d.cleared resource).served resource (d.claims resource) := by
  have hin : (resource.kind.isClusterScoped && !leading) = false := by
    cases hk : resource.kind.isClusterScoped with
    | false => rfl
    | true => rw [hleading hk]; rfl
  have hne : (d.claims resource).isEmpty = false := List.isEmpty_eq_false_iff.mpr hclaimed
  rw [Discoverer.discover, hin, cleared, served, ← performAll_append, List.map_append]
  simp [calls, hne]

theorem Sound.cleared {d : Discoverer} (hs : d.Sound) (resource : Resource) :
    (d.cleared resource).Sound := hs.performAll _

theorem pipelines_cleared (d : Discoverer) (resource : Resource) :
    (d.cleared resource).pipelines = d.pipelines := (performAll_pipelines _ _).1

theorem Sound.cleared_keeps {d : Discoverer} (hs : d.Sound) (resource : Resource) :
    d.roster.Keeps (d.cleared resource).roster := hs.performAll_keeps _

theorem Sound.holds_cleared {d : Discoverer} (hs : d.Sound) (resource : Resource)
    (i : HandlerId) :
    (d.cleared resource).roster.holds i resource.targetName = true ↔
      (i ∉ d.strays resource ∧ i ≠ d.annotated) ∧
        d.roster.holds i resource.targetName = true := by
  have henc := hs.encoding_performAll_deletes (d.strays resource ++ [d.annotated])
    resource.targetName i resource.targetName
  rw [Roster.holds_iff_encoding, Roster.holds_iff_encoding, Discoverer.cleared, henc]
  simp only [List.mem_append, List.mem_singleton, and_true]
  split_ifs with hgone
  · constructor
    · rintro ⟨config, ⟨⟩⟩
    · rintro ⟨hkept, -⟩
      exact absurd hgone (not_or.mpr hkept)
  · simp [not_or.mp hgone]

/-- Only rivals are left as owners. -/
theorem Sound.owner?_cleared {d : Discoverer} (hs : d.Sound) (resource : Resource)
    (registry : String) (i : HandlerId) :
    (d.cleared resource).roster.owner? registry resource.targetName = some i ↔
      d.roster.owner? registry resource.targetName = some i ∧
        ∃ p ∈ d.rivals resource registry, p.handler = i := by
  rw [(hs.cleared resource).consistent, (hs.cleared_keeps resource).registryOf?_eq,
    hs.holds_cleared]
  constructor
  · rintro ⟨hreg, ⟨hstray, hann⟩, hh⟩
    refine ⟨(hs.consistent _ _ _).mpr ⟨hreg, hh⟩, ?_⟩
    have hin := (mem_installed.mp (hs.mem_installed_of_holds hh)).resolve_right hann
    obtain ⟨k, p, hp, rfl⟩ := mem_handlers.mp hin
    have hp := KeyMap.mem_values_iff.mpr ⟨k, hp⟩
    refine ⟨p, mem_rivals.mpr ⟨hp, ?_, hreg⟩, rfl⟩
    by_contra hmatch
    exact hstray ((hs.handler_mem_strays hp resource).mpr ⟨Bool.eq_false_iff.mpr hmatch, hh⟩)
  · rintro ⟨ho, p, hp, rfl⟩
    obtain ⟨hp, hmatch, -⟩ := mem_rivals.mp hp
    obtain ⟨hreg, hh⟩ := (hs.consistent _ _ _).mp ho
    refine ⟨hreg, ⟨fun hstray => ?_, hs.handler_ne_annotated hp⟩, hh⟩
    have hno := ((hs.handler_mem_strays hp resource).mp hstray).1
    rw [hmatch] at hno
    cases hno

/-- A handler that serves no claim holds the target only if it still did before. -/
theorem Sound.holds_served_of_ne {d : Discoverer} (hs : d.Sound) {resource : Resource}
    {ps : List Pipeline} {i : HandlerId} (hne : ∀ p ∈ ps, i ≠ p.handler) (target : String) :
    (d.served resource ps).roster.holds i target = d.roster.holds i target := by
  have henc : (d.served resource ps).roster.encoding i target = d.roster.encoding i target := by
    refine hs.encoding_performAll_of_ne fun c hc hcq => ?_
    obtain ⟨p, hp, rfl⟩ := List.mem_map.mp hc
    exact hne p hp hcq.1
  rw [Bool.eq_iff_iff, Roster.holds_iff_encoding, Roster.holds_iff_encoding, henc]

/-- Nobody without a claim holds the target of a claimed resource in the end. -/
theorem Sound.not_holds_served {d : Discoverer} (hs : d.Sound) {resource : Resource}
    {i : HandlerId} (hclaim : ∀ p ∈ d.claims resource, i ≠ p.handler) :
    ((d.cleared resource).served resource (d.claims resource)).roster.holds i
      resource.targetName = false := by
  rw [(hs.cleared resource).holds_served_of_ne hclaim, Bool.eq_false_iff]
  intro hh
  obtain ⟨⟨hstray, hann⟩, hh⟩ := (hs.holds_cleared resource i).mp hh
  have hin := (mem_installed.mp (hs.mem_installed_of_holds hh)).resolve_right hann
  obtain ⟨k, p, hp, rfl⟩ := mem_handlers.mp hin
  have hp := KeyMap.mem_values_iff.mpr ⟨k, hp⟩
  by_cases hmatch : p.filter.isMatch resource = true
  · exact hclaim p (mem_claims_iff.mpr ⟨hp, hmatch⟩) rfl
  · exact hstray ((hs.handler_mem_strays hp resource).mpr ⟨Bool.eq_false_iff.mpr hmatch, hh⟩)

theorem Sound.rivals_eq_of_handler_eq {d : Discoverer} (hs : d.Sound) {resource : Resource}
    {registry : String} {p q : Pipeline} (hp : p ∈ d.rivals resource registry)
    (hq : q ∈ d.rivals resource registry) (he : p.handler = q.handler) : p = q :=
  hs.eq_of_handler_eq (mem_rivals.mp hp).1 (mem_rivals.mp hq).1 he

/-- The first rival has the least name. -/
theorem Sound.name_le_of_head? {d : Discoverer} (hs : d.Sound) {resource : Resource}
    {registry : String} {p q : Pipeline} (hp : (d.rivals resource registry).head? = some p)
    (hq : q ∈ d.rivals resource registry) : p.rule.name ≤ q.rule.name := by
  have hsorted : (d.rivals resource registry).Pairwise fun p q => p.rule.name < q.rule.name :=
    (hs.values_pairwise.filter _).filter _
  obtain ⟨rest, hrivals⟩ := List.head?_eq_some_iff.mp hp
  rw [hrivals] at hsorted hq
  rcases List.mem_cons.mp hq with rfl | hq
  · exact String.le_refl _
  · exact String.not_lt.mp (String.lt_asymm ((List.pairwise_cons.mp hsorted).1 q hq))

theorem mem_pipelines_cleared {d : Discoverer} {resource : Resource} {p : Pipeline}
    (hp : p ∈ d.claims resource) : p ∈ (d.cleared resource).pipelines.values := by
  rw [pipelines_cleared]
  exact (mem_claims_iff.mp hp).1

/-- Who owns the target of a claimed resource in the end: the rival that owned it before, and
    otherwise the first one. -/
theorem Sound.owner?_served {d : Discoverer} (hs : d.Sound) {resource : Resource}
    {registry : String}
    (henc : ∀ p ∈ d.rivals resource registry, (d.encode? p resource).isSome = true) :
    ((d.cleared resource).served resource (d.claims resource)).roster.owner? registry
        resource.targetName =
      ((d.cleared resource).roster.owner? registry resource.targetName).or
        ((d.rivals resource registry).head?.map (·.handler)) := by
  have hk := hs.cleared_keeps resource
  rw [(hs.cleared resource).owner?_performAll_handles (fun p => mem_pipelines_cleared) resource
    fun p hp hreg => ?_]
  · simp only [hk.registryOf?_eq, rivals, List.head?_filter]
  · rw [hk.registryOf?_eq] at hreg
    rw [encode?_of_keeps hk]
    exact henc p (List.mem_filter.mpr ⟨hp, decide_eq_true hreg⟩)

theorem Sound.exists_owner_served {d : Discoverer} (hs : d.Sound) {resource : Resource}
    {registry : String} (hne : d.rivals resource registry ≠ [])
    (henc : ∀ p ∈ d.rivals resource registry, (d.encode? p resource).isSome = true) :
    ∃ p ∈ d.rivals resource registry,
      ((d.cleared resource).served resource (d.claims resource)).roster.owner? registry
        resource.targetName = some p.handler ∧
      (∀ q ∈ d.rivals resource registry,
        d.roster.owner? registry resource.targetName = some q.handler → q = p) ∧
      ((∀ q ∈ d.rivals resource registry,
          d.roster.owner? registry resource.targetName ≠ some q.handler) →
        ∀ q ∈ d.rivals resource registry, p.rule.name ≤ q.rule.name) := by
  have howner := hs.owner?_served henc
  cases ho : (d.cleared resource).roster.owner? registry resource.targetName with
  | some i =>
    obtain ⟨ho', p, hp, rfl⟩ := (hs.owner?_cleared resource registry i).mp ho
    refine ⟨p, hp, by rw [howner, ho, Option.some_or], fun q hq hqo => ?_, fun hnone => ?_⟩
    · exact hs.rivals_eq_of_handler_eq hq hp (Option.some.inj (hqo.symm.trans ho'))
    · exact absurd ho' (hnone p hp)
  | none =>
    obtain ⟨p, hhead⟩ := Option.isSome_iff_exists.mp (List.isSome_head?.mpr hne)
    refine ⟨p, List.mem_of_head? hhead, ?_, fun q hq hqo => ?_, fun _ q hq => ?_⟩
    · rw [howner, ho, hhead, Option.none_or, Option.map_some]
    · rw [(hs.owner?_cleared resource registry q.handler).mpr ⟨hqo, q, hq, rfl⟩] at ho
      cases ho
    · exact hs.name_le_of_head? hhead hq

/-- Whatever happened before, taking in a resource that a rule claims leaves its target with
    nobody but rules that claim it. If all the rivals of a registry can encode it, then exactly
    one of them holds it, with the encoding under its rule: the one that owned it before or, if
    none did, the one whose rule has the least name. -/
theorem exists_unique_holder_discover (settings : Settings) (nodeName : String)
    (ops : List Operation) (leading : Bool) (resource : Resource)
    (hleading : resource.kind.isClusterScoped = true → leading = true)
    (hclaimed : ((start settings nodeName).run ops).claims resource ≠ []) :
    let d := (start settings nodeName).run ops
    let d' := d.discover leading resource
    (∀ p ∈ d'.pipelines.values, p.filter.isMatch resource = false →
      d'.roster.holds p.handler resource.targetName = false) ∧
    d'.roster.holds d'.annotated resource.targetName = false ∧
    ∀ registry, d.rivals resource registry ≠ [] →
      (∀ p ∈ d.rivals resource registry, (d.encode? p resource).isSome = true) →
      ∃ p ∈ d.rivals resource registry,
        (∀ q ∈ d.rivals resource registry,
          d'.roster.holds q.handler resource.targetName = true ↔ q = p) ∧
        d'.roster.encoding p.handler resource.targetName = d.encode? p resource ∧
        d'.roster.owner? registry resource.targetName = some p.handler ∧
        (∀ q ∈ d.rivals resource registry,
          d.roster.owner? registry resource.targetName = some q.handler → q = p) ∧
        ((∀ q ∈ d.rivals resource registry,
            d.roster.owner? registry resource.targetName ≠ some q.handler) →
          ∀ q ∈ d.rivals resource registry, p.rule.name ≤ q.rule.name) := by
  intro d d'
  have hs : d.Sound := sound_run settings nodeName ops
  have hs' : d'.Sound := hs.discover leading resource
  have hd' : d' = (d.cleared resource).served resource (d.claims resource) :=
    discover_eq_served hleading hclaimed
  refine ⟨fun p hp hmatch => ?_, ?_, fun registry hne henc => ?_⟩
  · have hpipelines : d'.pipelines = d.pipelines := by
      rw [hd']
      exact (performAll_pipelines _ _).1.trans (d.pipelines_cleared resource)
    rw [hpipelines] at hp
    rw [hd']
    refine hs.not_holds_served fun q hq he => ?_
    obtain ⟨hq, hclaim⟩ := mem_claims_iff.mp hq
    rw [hs.eq_of_handler_eq hp hq he, hclaim] at hmatch
    cases hmatch
  · have hannotated : d'.annotated = d.annotated := by
      rw [hd', served, performAll_eq, Discoverer.cleared, performAll_eq]
    rw [hannotated, hd']
    exact hs.not_holds_served fun q hq he =>
      hs.handler_ne_annotated (mem_claims_iff.mp hq).1 he.symm
  · obtain ⟨p, hp, hown, hbefore, hfirst⟩ := hs.exists_owner_served hne henc
    rw [← hd'] at hown
    have hk : d.roster.Keeps d'.roster := by
      rw [hd']
      exact (hs.cleared_keeps resource).trans ((hs.cleared resource).performAll_keeps _)
    obtain ⟨hreg, hh⟩ := (hs'.consistent _ _ _).mp hown
    refine ⟨p, hp, fun q hq => ⟨fun hq' => ?_, ?_⟩, ?_, hown, hbefore, hfirst⟩
    · have hregq : d'.roster.registryOf? q.handler = some registry :=
        (hk.registryOf?_eq _).trans (mem_rivals.mp hq).2.2
      exact hs.rivals_eq_of_handler_eq hq hp
        (hs'.consistent.eq_of_holds (hregq.trans hreg.symm) hq' hh)
    · rintro rfl
      exact hh
    · have hclaim : p ∈ d.claims resource := (List.mem_filter.mp hp).1
      have henc' := henc p hp
      rw [← encode?_of_keeps (hs.cleared_keeps resource)] at henc' ⊢
      rw [hd'] at hh ⊢
      exact (hs.cleared resource).encoding_performAll_handles (fun p => mem_pipelines_cleared)
        hclaim henc' hh

/-- Rule `b` has taken a pod in before rule `a` was installed, so it keeps the target, although
    `a` comes first. -/
theorem earlier_owner_keeps_target :
    let redis : String → Rule := fun name =>
      { name, pluginType := "telegraf/redis", selectors := { images := ["redis:*"] } }
    let pod : Resource :=
      { kind := .pod, ip := "10.0.0.1", object := { name := "x", ns := "ns" }
        containers := [{ image := "redis:6", ports := [] }] }
    let d := (start {} "node-1").run
      [.handleAll true [redis "b"], .discover true pod, .handle true (redis "a")]
    d.claims pod ≠ [] ∧ ∃ p ∈ d.rivals pod "telegraf.redis", p.rule.name = "b" ∧
      (d.discover true pod).roster.encoding p.handler pod.targetName = d.encode? p pod ∧
        ∀ q ∈ d.rivals pod "telegraf.redis",
          (d.discover true pod).roster.holds q.handler pod.targetName = true ↔ q = p := by
  intro redis pod d
  have hclaimed : d.claims pod ≠ [] := by decide +kernel
  obtain ⟨-, -, hrivals⟩ := exists_unique_holder_discover {} "node-1"
    [.handleAll true [redis "b"], .discover true pod, .handle true (redis "a")] true pod
    (fun _ => rfl) hclaimed
  obtain ⟨p, hp, honly, hencoding, -, hbefore, -⟩ :=
    hrivals "telegraf.redis" (by decide +kernel) (by decide +kernel)
  have hb : ∃ q ∈ d.rivals pod "telegraf.redis", q.rule.name = "b" ∧
      d.roster.owner? "telegraf.redis" pod.targetName = some q.handler := by decide +kernel
  obtain ⟨q, hq, hname, howner⟩ := hb
  rw [hbefore q hq howner] at hname
  exact ⟨hclaimed, p, hp, hname, hencoding, honly⟩

end ScrapeDiscovery.Discoverer

import ScrapeDiscovery.Proofs.Discoverer.Claims

/-!
# The rules of one registry by themselves

Rules whose plugin types have one registry name compete for targets, and others do not
meet them there. What the rules of a registry hold after a resource was taken in
depends on nothing but these rules, what they held before and the encoders: of those
that claim the resource the one that holds its target keeps it, and where none does,
the first that can encode it gets it. The handler of the targets that ask for
themselves is attached to one of the registries, but it has given up the target by
then.

A `Shelf` is all of this of one registry. Reports of resources act on a shelf, and
`shelf_run` says that the shelf of a discoverer after reports is its shelf before
them after the same reports.

Results:
* `Sound.owner?_asked`, `Sound.encoding_asked`: handlers asked for a target in turn.
* `Sound.encoding_discover`: what a rule holds of a resource that was taken in.
* `Sound.shelf_run`: a shelf takes reports by itself.
-/

namespace ScrapeDiscovery

/-! ## Shelves -/

/-- The encoding of a resource under a rule by the encoder of its plugin type, if it has one. -/
def EncoderTable.encode? (t : EncoderTable) (rule : Rule) (resource : Resource) :
    Option ScrapeConfig :=
  (t.resolve rule.pluginType).toOption.bind fun e =>
    (e.encode resource.ip resource.kind resource.object (some rule)).toOption.join

/-- An installed rule and what it holds. -/
structure Holding where
  filter : ResourceFilter
  rule : Rule
  targets : KeyMap ScrapeConfig
  deriving DecidableEq, Repr

/-- Rules with what they hold, under their names. -/
abbrev Shelf := KeyMap Holding

/-- What is reported of a resource. -/
inductive Report where
  /-- It was added or changed, and whether the agent leads then. -/
  | present (leading : Bool) (resource : Resource)
  /-- It is gone. -/
  | gone (resource : Resource)

/-- What a report asks of a discoverer. -/
def Report.operation : Report → Discoverer.Operation
  | .present leading resource => .discover leading resource
  | .gone resource => .deleteResource resource

namespace Shelf

/-- The rules that claim a resource, by name. -/
def claims (s : Shelf) (resource : Resource) : List Holding :=
  s.values.filter (·.filter.isMatch resource)

/-- Who is to hold the target of a resource: of the rules that claim it the one that holds it
already, and else the first that can encode it. -/
def heir (s : Shelf) (t : EncoderTable) (resource : Resource) : Option Holding :=
  ((s.claims resource).find? (·.targets.contains resource.targetName)).or
    ((s.claims resource).find? fun h => (t.encode? h.rule resource).isSome)

/-- What a rule holds after a resource was taken in. An heir that cannot encode it any longer keeps
what it holds. -/
def serve (s : Shelf) (t : EncoderTable) (resource : Resource) (h : Holding) : Holding :=
  { h with targets :=
      if s.heir t resource = some h then
        (t.encode? h.rule resource).elim h.targets (h.targets.insert resource.targetName)
      else h.targets.erase resource.targetName }

/-- What rules hold after a report. -/
def step (t : EncoderTable) (s : Shelf) : Report → Shelf
  | .present leading resource =>
    if resource.kind.isClusterScoped && !leading then s else s.map (s.serve t resource)
  | .gone resource => s.map fun h => { h with targets := h.targets.erase resource.targetName }

/-- What rules hold after reports, one after the other. -/
def run (t : EncoderTable) (s : Shelf) (reports : List Report) : Shelf := reports.foldl (step t) s

end Shelf

namespace Discoverer

/-- A pipeline with what its handler holds. -/
def holding (d : Discoverer) (p : Pipeline) : Holding :=
  ⟨p.filter, p.rule, d.roster.entries p.handler⟩

/-- The installed rules of a registry with what they hold. -/
def shelf (d : Discoverer) (registry : String) : Shelf :=
  (d.pipelines.filter fun _ p => registryName p.rule.pluginType = registry).map d.holding

variable {d : Discoverer}

/-! ## Pipelines, encoders and registries -/

theorem Sound.registryOf?_of_mem (hs : d.Sound) {p : Pipeline} (hp : p ∈ d.pipelines.values) :
    d.roster.registryOf? p.handler = some (registryName p.rule.pluginType) := by
  obtain ⟨k, hp⟩ := KeyMap.mem_values_iff.mp hp
  obtain ⟨h, hid, hm⟩ := hs.made k p hp
  exact Roster.registryOf?_eq_some_iff.mpr ⟨h, hid, (makeHandler_eq_ok hm).1⟩

/-- The handler of a pipeline encodes like the encoder of the plugin type of its rule. -/
theorem Sound.encode?_of_mem (hs : d.Sound) {p : Pipeline} (hp : p ∈ d.pipelines.values)
    {rule : Rule} (htype : rule.pluginType = p.rule.pluginType) (resource : Resource) :
    d.encode? { p with rule } resource = d.encoders.encode? rule resource := by
  obtain ⟨k, hp⟩ := KeyMap.mem_values_iff.mp hp
  obtain ⟨h, hid, hm⟩ := hs.made k p hp
  obtain ⟨-, -, hresolve, -⟩ := makeHandler_eq_ok hm
  have hresolve : d.encoders.resolve p.rule.pluginType = .ok h.encoder := hresolve
  rw [encode?_eq (p := { p with rule }) hid, EncoderTable.encode?, htype, hresolve]
  rfl

theorem Sound.rivals_eq (hs : d.Sound) (resource : Resource) (registry : String) :
    d.rivals resource registry =
      (d.pipelines.values.filter fun p => registryName p.rule.pluginType = registry).filter
        (·.filter.isMatch resource) := by
  rw [rivals, claims, List.filter_filter, List.filter_filter]
  refine List.filter_congr fun p hp => ?_
  rw [hs.registryOf?_of_mem hp, Bool.and_comm]
  simp

/-! ## Asking in turn -/

theorem Sound.ready_of_mem_handlers (hs : d.Sound) {id : HandlerId} (hid : id ∈ d.handlers) :
    ∃ h, d.roster.handler? id = some h ∧ h.closed = false ∧ h.encoder.family = h.factory := by
  obtain ⟨p, hp, rfl⟩ := List.mem_map.mp hid
  exact hs.ready hp

theorem handlers_perform (d : Discoverer) (c : HandlerCall) :
    (d.perform c).handlers = d.handlers := by
  rw [handlers, (d.perform_pipelines c).1, handlers]

theorem handlers_performAll (d : Discoverer) (calls : List HandlerCall) :
    (d.performAll calls).handlers = d.handlers := by
  rw [handlers, (d.performAll_pipelines calls).1, handlers]

/-- After handlers were asked for a target in turn its owner is the one there was, and otherwise the
    first of them in the registry that could encode it. -/
theorem Sound.owner?_asked (hs : d.Sound) {ps : List Pipeline}
    (hps : ∀ p ∈ ps, p.handler ∈ d.handlers) (resource : Resource) (registry : String) :
    (d.served resource ps).roster.owner? registry resource.targetName =
      (d.roster.owner? registry resource.targetName).or
        ((ps.find? fun p => d.roster.registryOf? p.handler = some registry &&
          (d.encode? p resource).isSome).map (·.handler)) := by
  induction ps generalizing d with
  | nil => exact (Option.or_none).symm
  | cons p ps ih =>
    let call : HandlerCall := .handle p.handler resource p.rule
    have hk : d.roster.Keeps (d.perform call).roster := hs.perform_keeps call
    have hrest := ih (hs.perform call) fun q hq => by
      rw [handlers_perform]
      exact hps q (List.mem_cons_of_mem p hq)
    obtain ⟨h, hid, hopen, hfamily⟩ := hs.ready_of_mem_handlers (hps p List.mem_cons_self)
    have hfirst : (d.perform call).roster.owner? registry resource.targetName =
        if registry = h.registry ∧ (h.encode? resource (some p.rule)).isSome = true then
          (d.roster.owner? registry resource.targetName).or (some p.handler)
        else d.roster.owner? registry resource.targetName :=
      Roster.owner?_handle hs.consistent hid hopen hfamily resource (some p.rule) registry
    have hreg : d.roster.registryOf? p.handler = some h.registry :=
      Roster.registryOf?_eq_some_iff.mpr ⟨h, hid, rfl⟩
    refine hrest.trans ?_
    simp only [hk.registryOf?_eq, encode?_of_keeps hk]
    rw [hfirst, List.find?_cons, hreg, encode?_eq hid]
    by_cases hown : registry = h.registry ∧ (h.encode? resource (some p.rule)).isSome = true
    · obtain ⟨rfl, henc⟩ := hown
      simp [henc]
    · rw [if_neg hown]
      have hskip : (decide (some h.registry = some registry) &&
          (h.encode? resource (some p.rule)).isSome) = false := by
        rw [Bool.eq_false_iff]
        intro hboth
        obtain ⟨hr, henc⟩ := Bool.and_eq_true_iff.mp hboth
        exact hown ⟨(Option.some.inj (of_decide_eq_true hr)).symm, henc⟩
      rw [hskip]

/-- Asking others leaves what a handler holds as it is. -/
theorem Sound.encoding_served_of_not_mem (hs : d.Sound) {ps : List Pipeline} {id : HandlerId}
    (hnot : id ∉ ps.map (·.handler)) (resource : Resource) (target : String) :
    (d.served resource ps).roster.encoding id target = d.roster.encoding id target := by
  refine hs.encoding_performAll_of_ne fun c hc hreached => ?_
  obtain ⟨p, hp, rfl⟩ := List.mem_map.mp hc
  exact hnot (List.mem_map.mpr ⟨p, hp, hreached.1.symm⟩)

/-- What a handler holds of a target after it was asked for it in turn with others: nothing unless
    it owns the target then, and else its encoding or, if it has none, what it held before. -/
theorem Sound.encoding_asked (hs : d.Sound) {ps : List Pipeline}
    (hps : ∀ p ∈ ps, p.handler ∈ d.handlers) (hnodup : (ps.map (·.handler)).Nodup)
    (resource : Resource) {p : Pipeline} (hp : p ∈ ps) {registry : String}
    (hreg : d.roster.registryOf? p.handler = some registry) :
    (d.served resource ps).roster.encoding p.handler resource.targetName =
      if (d.served resource ps).roster.owner? registry resource.targetName = some p.handler then
        (d.encode? p resource).or (d.roster.encoding p.handler resource.targetName)
      else none := by
  have hs' : (d.served resource ps).Sound := hs.performAll _
  split_ifs with howner
  swap
  · -- who holds a target owns it
    by_contra hsome
    have hh : (d.served resource ps).roster.holds p.handler resource.targetName = true :=
      Roster.holds_iff_encoding.mpr (Option.ne_none_iff_exists'.mp hsome)
    have hk : d.roster.Keeps (d.served resource ps).roster := hs.performAll_keeps _
    have hreg' := (hk.registryOf?_eq p.handler).trans hreg
    exact howner ((hs'.consistent _ _ _).mpr ⟨hreg', hh⟩)
  obtain ⟨before, after, rfl⟩ := List.append_of_mem hp
  let asked := d.served resource before
  have hasked : asked.Sound := hs.performAll _
  have hk : d.roster.Keeps asked.roster := hs.performAll_keeps _
  have hsplit : d.served resource (before ++ p :: after) = asked.served resource (p :: after) := by
    rw [served, List.map_append, performAll_append]
    rfl
  have hafter : ∀ q ∈ p :: after, q.handler ∈ asked.handlers := fun q hq => by
    rw [show asked.handlers = d.handlers from handlers_performAll d _]
    exact hps q (List.mem_append_right before hq)
  rw [hsplit] at howner ⊢
  rw [List.map_append, List.map_cons] at hnodup
  obtain ⟨-, hlater, hearlier⟩ := List.nodup_append.mp hnodup
  -- nobody else owns the target when the handler is asked
  have hfree : ∀ i, asked.roster.owner? registry resource.targetName = some i → i = p.handler := by
    intro i hi
    rw [hasked.owner?_asked hafter, hi, Option.some_or] at howner
    exact Option.some.inj howner
  obtain ⟨h, hid, hopen, hfamily⟩ := hasked.ready_of_mem_handlers (hafter p List.mem_cons_self)
  have hregistry : h.registry = registry := by
    have hreg' := (hk.registryOf?_eq p.handler).trans hreg
    rw [Roster.registryOf?, hid] at hreg'
    exact Option.some.inj hreg'
  let call : HandlerCall := .handle p.handler resource p.rule
  calc (asked.served resource (p :: after)).roster.encoding p.handler resource.targetName
    _ = (asked.perform call).roster.encoding p.handler resource.targetName :=
      (hasked.perform call).encoding_served_of_not_mem (List.nodup_cons.mp hlater).1 _ _
    _ = (h.encode? resource (some p.rule)).or
          (asked.roster.encoding p.handler resource.targetName) := by
      have hhandle := Roster.encoding_handle hasked.consistent hid hopen hfamily resource
        (some p.rule)
      rw [hregistry, if_pos hfree] at hhandle
      exact hhandle
    _ = (d.encode? p resource).or (d.roster.encoding p.handler resource.targetName) := by
      rw [← encode?_eq hid, encode?_of_keeps hk]
      refine congrArg _ (hs.encoding_served_of_not_mem (fun hin => ?_) _ _)
      exact hearlier _ hin _ List.mem_cons_self rfl

/-! ## Taking a resource in -/

/-- The rival that is to hold the target of a resource: the one that holds it already, and else the
    first that can encode it. -/
def heir (d : Discoverer) (resource : Resource) (registry : String) : Option Pipeline :=
  ((d.rivals resource registry).find? fun p => d.roster.holds p.handler resource.targetName).or
    ((d.rivals resource registry).find? fun p => (d.encode? p resource).isSome)

theorem mem_rivals_of_heir {resource : Resource} {registry : String} {p : Pipeline}
    (hp : d.heir resource registry = some p) : p ∈ d.rivals resource registry := by
  rcases Option.or_eq_some_iff.mp hp with hp | ⟨-, hp⟩
  · exact List.mem_of_find?_eq_some hp
  · exact List.mem_of_find?_eq_some hp

/-- When everybody without a claim has given the target up, its owner is the rival that held it. -/
theorem Sound.owner?_cleared_eq (hs : d.Sound) (resource : Resource) (registry : String) :
    (d.cleared resource).roster.owner? registry resource.targetName =
      ((d.rivals resource registry).find? fun p =>
        d.roster.holds p.handler resource.targetName).map (·.handler) := by
  cases hfind : (d.rivals resource registry).find? fun p =>
      d.roster.holds p.handler resource.targetName with
  | some p =>
    have hp := List.mem_of_find?_eq_some hfind
    have hh : d.roster.holds p.handler resource.targetName = true :=
      List.find?_some (p := fun p : Pipeline => d.roster.holds p.handler resource.targetName) hfind
    have howner := (hs.consistent _ _ _).mpr ⟨(mem_rivals.mp hp).2.2, hh⟩
    exact (hs.owner?_cleared resource registry p.handler).mpr ⟨howner, p, hp, rfl⟩
  | none =>
    by_contra hsome
    obtain ⟨i, hi⟩ := Option.ne_none_iff_exists'.mp hsome
    obtain ⟨howner, p, hp, rfl⟩ := (hs.owner?_cleared resource registry i).mp hi
    exact List.find?_eq_none.mp hfind p hp ((hs.consistent _ _ _).mp howner).2

theorem Sound.owner?_discover (hs : d.Sound) {leading : Bool} {resource : Resource}
    (hleading : resource.kind.isClusterScoped = true → leading = true)
    (hclaimed : d.claims resource ≠ []) (registry : String) :
    (d.discover leading resource).roster.owner? registry resource.targetName =
      (d.heir resource registry).map (·.handler) := by
  have hk := hs.cleared_keeps resource
  have hps : ∀ p ∈ d.claims resource, p.handler ∈ (d.cleared resource).handlers := fun p hp =>
    List.mem_map_of_mem (mem_pipelines_cleared hp)
  rw [discover_eq_served hleading hclaimed, (hs.cleared resource).owner?_asked hps,
    hs.owner?_cleared_eq, heir, Option.map_or, rivals, List.find?_filter]
  simp only [hk.registryOf?_eq, encode?_of_keeps hk, Bool.decide_and, Bool.decide_eq_true,
    List.find?_filter]

/-- A handler that has a claim loses nothing to those that have none. -/
theorem Sound.encoding_cleared (hs : d.Sound) {resource : Resource} {p : Pipeline}
    (hp : p ∈ d.claims resource) :
    (d.cleared resource).roster.encoding p.handler resource.targetName =
      d.roster.encoding p.handler resource.targetName := by
  obtain ⟨hp, hmatch⟩ := mem_claims_iff.mp hp
  refine (hs.encoding_performAll_deletes _ _ _ _).trans (if_neg ?_)
  rintro ⟨hin, -⟩
  rcases List.mem_append.mp hin with hstray | hann
  · have hno := ((hs.handler_mem_strays hp resource).mp hstray).1
    rw [hmatch] at hno
    cases hno
  · exact hs.handler_ne_annotated hp (List.mem_singleton.mp hann)

/-- What a rule holds of a resource that was taken in: nothing, unless it is the heir in its
    registry, and then its encoding or, if it has none, what it held before. -/
theorem Sound.encoding_discover (hs : d.Sound) {leading : Bool} {resource : Resource}
    (hleading : resource.kind.isClusterScoped = true → leading = true) {p : Pipeline}
    (hp : p ∈ d.pipelines.values) :
    (d.discover leading resource).roster.encoding p.handler resource.targetName =
      if d.heir resource (registryName p.rule.pluginType) = some p then
        (d.encode? p resource).or (d.roster.encoding p.handler resource.targetName)
      else none := by
  have hreg := hs.registryOf?_of_mem hp
  cases hmatch : p.filter.isMatch resource with
  | false =>
    have hno := hs.not_holds_discover hleading hp hmatch
    rw [if_neg fun hheir => ?_]
    · by_contra hsome
      rw [Roster.holds_iff_encoding.mpr (Option.ne_none_iff_exists'.mp hsome)] at hno
      cases hno
    · have hclaim := (mem_rivals.mp (mem_rivals_of_heir hheir)).2.1
      rw [hmatch] at hclaim
      cases hclaim
  | true =>
    have hclaim : p ∈ d.claims resource := mem_claims_iff.mpr ⟨hp, hmatch⟩
    have hk := hs.cleared_keeps resource
    have hps : ∀ q ∈ d.claims resource, q.handler ∈ (d.cleared resource).handlers := fun q hq =>
      List.mem_map_of_mem (mem_pipelines_cleared hq)
    have hnodup : ((d.claims resource).map (·.handler)).Nodup :=
      ((List.nodup_append.mp hs.nodup_installed).1.sublist (List.filter_sublist.map _))
    have howner := hs.owner?_discover hleading (List.ne_nil_of_mem hclaim)
      (registryName p.rule.pluginType)
    have hreg' := (hk.registryOf?_eq p.handler).trans hreg
    rw [discover_eq_served hleading (List.ne_nil_of_mem hclaim)] at howner ⊢
    rw [(hs.cleared resource).encoding_asked hps hnodup resource hclaim hreg', howner,
      encode?_of_keeps hk, hs.encoding_cleared hclaim]
    refine if_congr ⟨fun hsame => ?_, fun hheir => by rw [hheir]; rfl⟩ rfl rfl
    obtain ⟨q, hq, hid⟩ := Option.map_eq_some_iff.mp hsame
    rw [hq, hs.eq_of_handler_eq (mem_rivals.mp (mem_rivals_of_heir hq)).1 hp hid]

/-! ## What a report does to a shelf -/

theorem get?_shelf (d : Discoverer) (registry k : String) :
    (d.shelf registry).get? k =
      ((d.pipelines.get? k).filter fun p => registryName p.rule.pluginType = registry).map
        d.holding := by
  rw [shelf, KeyMap.get?_map, KeyMap.get?_filter]

theorem Sound.claims_shelf (hs : d.Sound) (resource : Resource) (registry : String) :
    (d.shelf registry).claims resource = (d.rivals resource registry).map d.holding := by
  rw [Shelf.claims, shelf, KeyMap.values_map, KeyMap.values_filter, List.filter_map, hs.rivals_eq]
  rfl

theorem Sound.heir_shelf (hs : d.Sound) (resource : Resource) (registry : String) :
    (d.shelf registry).heir d.encoders resource = (d.heir resource registry).map d.holding := by
  have hencodes : (d.rivals resource registry).filter (fun p => (d.encode? p resource).isSome) =
      (d.rivals resource registry).filter
        fun p => (d.encoders.encode? p.rule resource).isSome :=
    List.filter_congr fun p hp => congrArg Option.isSome
      (hs.encode?_of_mem (mem_rivals.mp hp).1 rfl resource)
  rw [Shelf.heir, heir, Option.map_or, hs.claims_shelf, List.find?_map, List.find?_map,
    ← List.head?_filter (p := fun p => (d.encode? p resource).isSome), hencodes, List.head?_filter]
  rfl

theorem Sound.eq_of_name_eq (hs : d.Sound) {p q : Pipeline} (hp : p ∈ d.pipelines.values)
    (hq : q ∈ d.pipelines.values) (he : p.rule.name = q.rule.name) : p = q := by
  obtain ⟨k, hp⟩ := KeyMap.mem_values_iff.mp hp
  obtain ⟨k', hq⟩ := KeyMap.mem_values_iff.mp hq
  rw [hs.named k p hp, hs.named k' q hq] at he
  subst he
  exact Option.some.inj (hp.symm.trans hq)

/-- Taking a resource in does to a pipeline what it does on the shelf. -/
theorem Sound.holding_discover (hs : d.Sound) {leading : Bool} {resource : Resource}
    (hleading : resource.kind.isClusterScoped = true → leading = true) {p : Pipeline}
    (hp : p ∈ d.pipelines.values) :
    (d.discover leading resource).holding p =
      (d.shelf (registryName p.rule.pluginType)).serve d.encoders resource (d.holding p) := by
  have hheir : (d.shelf (registryName p.rule.pluginType)).heir d.encoders resource =
      some (d.holding p) ↔ d.heir resource (registryName p.rule.pluginType) = some p := by
    rw [hs.heir_shelf]
    refine ⟨fun hsome => ?_, fun hsome => by rw [hsome]; rfl⟩
    obtain ⟨q, hq, he⟩ := Option.map_eq_some_iff.mp hsome
    rw [hq, hs.eq_of_name_eq (mem_rivals.mp (mem_rivals_of_heir hq)).1 hp
      (congrArg (·.rule.name) he)]
  have hencode : d.encoders.encode? p.rule resource = d.encode? p resource :=
    (hs.encode?_of_mem hp rfl resource).symm
  refine congrArg (Holding.mk p.filter p.rule) (KeyMap.ext_get? fun target => ?_)
  show (d.discover leading resource).roster.encoding p.handler target = _
  by_cases htarget : target = resource.targetName
  · subst htarget
    rw [hs.encoding_discover hleading hp]
    simp only [hheir]
    split_ifs
    · show _ = KeyMap.get? ((d.encoders.encode? p.rule resource).elim _ _) _
      rw [hencode]
      cases d.encode? p resource with
      | none => rfl
      | some config => exact (KeyMap.get?_insert_self _ _ _).symm
    · exact (KeyMap.get?_erase_self _ _).symm
  · rw [hs.encoding_discover_of_ne htarget]
    split_ifs
    · show _ = KeyMap.get? ((d.encoders.encode? p.rule resource).elim _ _) _
      cases d.encoders.encode? p.rule resource with
      | none => rfl
      | some config => exact (KeyMap.get?_insert_of_ne htarget).symm
    · exact (KeyMap.get?_erase_of_ne htarget).symm

theorem Sound.holding_deleteResource (hs : d.Sound) (resource : Resource) {p : Pipeline}
    (hp : p ∈ d.pipelines.values) :
    (d.deleteResource resource).holding p =
      { d.holding p with targets := (d.holding p).targets.erase resource.targetName } := by
  have hin : p.handler ∈ d.installed := mem_installed.mpr (Or.inl (List.mem_map_of_mem hp))
  refine congrArg (Holding.mk p.filter p.rule) (KeyMap.ext_get? fun target => ?_)
  show (d.deleteResource resource).roster.encoding p.handler target =
    ((d.roster.entries p.handler).erase resource.targetName).get? target
  rw [deleteResource_eq, hs.encoding_performAll_deletes, KeyMap.get?_erase]
  simp only [hin, true_and]
  rfl

theorem encoders_discover (d : Discoverer) (leading : Bool) (resource : Resource) :
    (d.discover leading resource).encoders = d.encoders := by
  unfold discover
  split
  · rfl
  · rw [performAll_eq]

theorem encoders_report (d : Discoverer) (report : Report) :
    (d.step report.operation).encoders = d.encoders := by
  cases report with
  | present leading resource => exact d.encoders_discover leading resource
  | gone resource =>
    show (d.performAll _).encoders = d.encoders
    rw [performAll_eq]

/-- A report acts on a shelf by itself. -/
theorem Sound.shelf_step (hs : d.Sound) (report : Report) (registry : String) :
    (d.step report.operation).shelf registry = (d.shelf registry).step d.encoders report := by
  cases report with
  | present leading resource =>
    show (d.discover leading resource).shelf registry =
      if resource.kind.isClusterScoped && !leading then d.shelf registry
      else (d.shelf registry).map ((d.shelf registry).serve d.encoders resource)
    by_cases hin : (resource.kind.isClusterScoped && !leading) = true
    · rw [if_pos hin, Discoverer.discover, if_pos hin]
    have hleading := isClusterScoped_imp_of_not hin
    rw [if_neg hin]
    refine KeyMap.ext_get? fun k => ?_
    rw [KeyMap.get?_map, get?_shelf, get?_shelf, pipelines_discover, Option.map_map]
    refine Option.map_congr fun p hfilter => ?_
    obtain ⟨hp, hreg⟩ := Option.filter_eq_some_iff.mp hfilter
    obtain rfl : registryName p.rule.pluginType = registry := of_decide_eq_true hreg
    exact hs.holding_discover hleading (KeyMap.mem_values_iff.mpr ⟨k, hp⟩)
  | gone resource =>
    show (d.deleteResource resource).shelf registry = _
    refine KeyMap.ext_get? fun k => ?_
    rw [Shelf.step, KeyMap.get?_map, get?_shelf, get?_shelf, Discoverer.deleteResource,
      (performAll_pipelines d _).1, Option.map_map]
    refine Option.map_congr fun p hp => ?_
    have hp := (Option.filter_eq_some_iff.mp hp).1
    exact hs.holding_deleteResource resource (KeyMap.mem_values_iff.mpr ⟨k, hp⟩)

/-- The shelf of a discoverer after reports is its shelf before them after the same reports. -/
theorem Sound.shelf_run (hs : d.Sound) (reports : List Report) (registry : String) :
    (d.run (reports.map Report.operation)).shelf registry =
      (d.shelf registry).run d.encoders reports := by
  induction reports generalizing d with
  | nil => rfl
  | cons report reports ih =>
    have hrest := ih (hs.step report.operation)
    rw [hs.shelf_step, encoders_report] at hrest
    exact hrest

end Discoverer

end ScrapeDiscovery

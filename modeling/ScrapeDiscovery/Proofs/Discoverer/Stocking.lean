import ScrapeDiscovery.Proofs.Discoverer.Applied
import ScrapeDiscovery.Proofs.Discoverer.Shelves

/-!
# Rules installed on an empty discoverer

Where nothing is installed and nothing held, each valid rule of a list with distinct
names gets a handler of its own, which holds nothing. If the agent leads, the rules for
the API server then ask for its target in the order of the list, and in each registry
the first that can encode it gets it. So the shelf that the rules of a registry start
with depends on nothing but these rules, in their order.

Results:
* `Sound.calls_installAll_of_nodup`: who asks for the API server, in which order.
* `Vacant.holding_handleAll`: what a rule holds once it was installed.
* `Vacant.shelf_handleAll_congr`: the shelf that rules of one registry start with.
* `Vacant.holds_iff_least`: which of them gets the first resource that all of them claim.
-/

namespace ScrapeDiscovery

/-- In a list without two rules of one name the last valid rule of a name is the only one. -/
theorem lastValid?_eq_some_iff {rules : List Rule} (hnodup : (rules.map (·.name)).Nodup)
    {name : String} {rule : Rule} :
    lastValid? rules name = some rule ↔
      rule ∈ rules ∧ rule.name = name ∧ rule.isValid = true := by
  refine ⟨mem_of_lastValid?, fun h => ?_⟩
  obtain ⟨rule', hlast⟩ := Option.isSome_iff_exists.mp (isSome_lastValid?_iff.mpr ⟨rule, h⟩)
  obtain ⟨hmem', hname', -⟩ := mem_of_lastValid? hlast
  rw [hlast, List.inj_on_of_nodup_map hnodup hmem' h.1 (hname'.trans h.2.1.symm)]

/-- The valid rules of a list whose plugin types have a registry name. -/
def ofRegistry (rules : List Rule) (registry : String) : List Rule :=
  rules.filter fun rule => registryName rule.pluginType = registry && rule.isValid

theorem mem_ofRegistry {rules : List Rule} {registry : String} {rule : Rule} :
    rule ∈ ofRegistry rules registry ↔
      rule ∈ rules ∧ registryName rule.pluginType = registry ∧ rule.isValid = true := by
  rw [ofRegistry, List.mem_filter, Bool.and_eq_true, decide_eq_true_iff]

/-- Whether a rule is for the API server and can encode it. -/
def Rule.answers (rule : Rule) (t : EncoderTable) : Bool :=
  rule.IsForApiServer && (t.encode? (Discoverer.forApiServer rule) .apiServer).isSome

theorem lastValid?_ofRegistry {rules : List Rule} (hnodup : (rules.map (·.name)).Nodup)
    (registry name : String) :
    lastValid? (ofRegistry rules registry) name =
      (lastValid? rules name).filter fun rule => registryName rule.pluginType = registry := by
  have hnodup' : ((ofRegistry rules registry).map (·.name)).Nodup :=
    hnodup.sublist (List.filter_sublist.map _)
  refine Option.ext fun rule => ?_
  rw [lastValid?_eq_some_iff hnodup', mem_ofRegistry, Option.filter_eq_some_iff,
    lastValid?_eq_some_iff hnodup, decide_eq_true_iff]
  constructor
  · rintro ⟨⟨hmem, hreg, hvalid⟩, hname, -⟩
    exact ⟨⟨hmem, hname, hvalid⟩, hreg⟩
  · rintro ⟨⟨hmem, hname, hvalid⟩, hreg⟩
    exact ⟨⟨hmem, hreg, hvalid⟩, hname, hvalid⟩

namespace Discoverer

variable {d : Discoverer}

/-! ## Asking for the API server in the order of a list -/

/-- The pipelines of rules in the order of the rules. -/
def inOrder (d : Discoverer) (rules : List Rule) : List Pipeline :=
  rules.filterMap fun rule => d.pipelines.get? rule.name

theorem mem_values_of_mem_inOrder {rules : List Rule} {p : Pipeline} (hp : p ∈ d.inOrder rules) :
    p ∈ d.pipelines.values := by
  obtain ⟨rule, -, hp⟩ := List.mem_filterMap.mp hp
  exact KeyMap.mem_values_iff.mpr ⟨rule.name, hp⟩

/-- Rules of distinct names that none is installed under yet ask for the API server in their
    order. -/
theorem Sound.calls_installAll_of_nodup {i : Installation} (hs : i.discoverer.Sound)
    {rules : List Rule} (hnodup : (rules.map (·.name)).Nodup)
    (hfree : ∀ rule ∈ rules, i.discoverer.pipelines.get? rule.name = none) :
    (rules.foldl Installation.step i).calls = i.calls ++
      ((rules.foldl Installation.step i).discoverer.inOrder rules).flatMap apiServerCalls := by
  induction rules generalizing i with
  | nil => exact (List.append_nil _).symm
  | cons rule rules ih =>
    rw [List.map_cons, List.nodup_cons] at hnodup
    have hs' := hs.installStep rule
    have hother : ∀ r ∈ rules, r.name ≠ rule.name := fun r hr he =>
      hnodup.1 (List.mem_map.mpr ⟨r, hr, he⟩)
    have hrest := ih hs' hnodup.2 fun r hr => by
      rw [hs.get?_step_of_ne fun h => hother r hr h.1.symm]
      exact hfree r (List.mem_cons_of_mem rule hr)
    -- no later rule has this name
    have hlast := hs'.get?_installAll_of_not_mem hnodup.1
    rw [List.foldl_cons, hrest, inOrder, inOrder, List.filterMap_cons, hlast]
    rcases hs.step_cases rule with ⟨-, p, d, hi, hd, hcalls⟩ | ⟨-, hd, hcalls⟩
    · rw [hcalls, hd, install_get? hi, List.flatMap_cons, List.append_assoc]
    · rw [hcalls, hd, hfree rule List.mem_cons_self]

/-- The pipelines for the API server, with their rules as they apply to it. -/
def askers (ps : List Pipeline) : List Pipeline :=
  (ps.filter (·.filter.kind = .apiServer)).map fun p => { p with rule := forApiServer p.rule }

theorem handlers_askers (ps : List Pipeline) :
    (askers ps).map (·.handler) = (ps.filter (·.filter.kind = .apiServer)).map (·.handler) := by
  rw [askers, List.map_map]
  rfl

theorem mem_handlers_of_mem_askers {ps : List Pipeline} (hps : ∀ p ∈ ps, p ∈ d.pipelines.values)
    {q : Pipeline} (hq : q ∈ askers ps) : q.handler ∈ d.handlers := by
  have hid := List.mem_map_of_mem (f := fun q : Pipeline => q.handler) hq
  rw [handlers_askers] at hid
  obtain ⟨p, hp, he⟩ := List.mem_map.mp hid
  exact he ▸ List.mem_map_of_mem (hps p (List.mem_filter.mp hp).1)

theorem Sound.isForApiServer_iff (hs : d.Sound) {p : Pipeline} (hp : p ∈ d.pipelines.values) :
    p.rule.IsForApiServer ↔ p.filter.kind = .apiServer := by
  obtain ⟨k, hk⟩ := KeyMap.mem_values_iff.mp hp
  rw [Rule.IsForApiServer, ResourceFilter.kind_of_compile (hs.compiled k p hk), Option.some_inj]

/-- Nobody is asked but the pipelines for the API server. -/
theorem Sound.kind_of_asked (hs : d.Sound) {ps : List Pipeline}
    (hps : ∀ p ∈ ps, p ∈ d.pipelines.values) {p : Pipeline} (hp : p ∈ d.pipelines.values)
    (hasked : p.handler ∈ (askers ps).map (·.handler)) : p.filter.kind = .apiServer := by
  rw [handlers_askers] at hasked
  obtain ⟨q, hq, hid⟩ := List.mem_map.mp hasked
  obtain ⟨hq, hfor⟩ := List.mem_filter.mp hq
  rw [hs.eq_of_handler_eq (hps q hq) hp hid] at hfor
  exact of_decide_eq_true hfor

theorem performAll_apiServerCalls (d : Discoverer) (ps : List Pipeline) :
    d.performAll (ps.flatMap apiServerCalls) = d.served .apiServer (askers ps) := by
  have hcalls : ps.flatMap apiServerCalls =
      (askers ps).map fun p => .handle p.handler .apiServer p.rule := by
    rw [askers, List.map_map]
    induction ps with
    | nil => rfl
    | cons p ps ih =>
      rw [List.flatMap_cons, ih, apiServerCalls, List.filter_cons]
      by_cases hkind : p.filter.kind = .apiServer
      · rw [if_pos hkind, if_pos (decide_eq_true hkind)]
        rfl
      · rw [if_neg hkind, if_neg (by simpa using hkind)]
        rfl
  rw [served, hcalls]

/-- Of the handlers that are asked, the first one of a registry that can encode the API server. -/
theorem Sound.find?_askers (hs : d.Sound) {ps : List Pipeline}
    (hps : ∀ p ∈ ps, p ∈ d.pipelines.values) (registry : String) :
    ((askers ps).find? fun p => d.roster.registryOf? p.handler = some registry &&
        (d.encode? p .apiServer).isSome).map (·.handler) =
      (ps.find? fun p =>
        registryName p.rule.pluginType = registry && p.rule.answers d.encoders).map
          (·.handler) := by
  rw [askers, List.find?_map, Option.map_map, List.find?_filter, ← List.head?_filter,
    ← List.head?_filter]
  refine congrArg (fun l : List Pipeline => l.head?.map (·.handler))
    (List.filter_congr fun p hp => ?_)
  have htype : (forApiServer p.rule).pluginType = p.rule.pluginType := rfl
  have hencode := hs.encode?_of_mem (hps p hp) htype .apiServer
  simp only [Function.comp_apply, Rule.answers, hs.registryOf?_of_mem (hps p hp), hencode,
    hs.isForApiServer_iff (hps p hp), Option.some_inj, Bool.decide_and, Bool.decide_eq_true]
  exact Bool.and_left_comm _ _ _

/-- Making the number of rules known makes no difference to what is asked of the handlers. -/
theorem roster_performAll_publishCount (d : Discoverer) (calls : List HandlerCall) :
    (d.publishCount.performAll calls).roster = (d.performAll calls).roster := by
  have hperform : ∀ (d : Discoverer) (n : Nat) (c : HandlerCall),
      ({ d with ruleGauge := n } : Discoverer).perform c = { d.perform c with ruleGauge := n } := by
    intro d n c
    cases c with
    | delete id target => rfl
    | handle id resource rule => rfl
    | annotate resource =>
      simp only [perform, annotate]
      split
      · rfl
      · split <;> rfl
  have hall : ∀ (d : Discoverer) (n : Nat),
      ({ d with ruleGauge := n } : Discoverer).performAll calls =
        { d.performAll calls with ruleGauge := n } := by
    induction calls with
    | nil => exact fun _ _ => rfl
    | cons c cs ih =>
      intro d n
      rw [performAll, List.foldl_cons, hperform]
      exact ih (d.perform c) n
  rw [publishCount, hall]

/-- The rule of a list that is to hold the API server: the first that can answer for it. -/
def apiServerHeir (t : EncoderTable) (rules : List Rule) : Option Rule := rules.find? (·.answers t)

/-- What a rule of a list holds once the list was installed. -/
def stock (t : EncoderTable) (leading : Bool) (rules : List Rule) (rule : Rule) :
    KeyMap ScrapeConfig :=
  if leading = true ∧ apiServerHeir t rules = some rule then
    (t.encode? (forApiServer rule) .apiServer).elim ∅
      (KeyMap.insert ∅ Resource.apiServer.targetName)
  else ∅

theorem get?_stock (t : EncoderTable) (leading : Bool) (rules : List Rule) (rule : Rule)
    (target : String) :
    (stock t leading rules rule).get? target =
      if target = Resource.apiServer.targetName ∧ leading = true ∧
          apiServerHeir t rules = some rule then
        t.encode? (forApiServer rule) .apiServer
      else none := by
  unfold stock
  by_cases hheir : leading = true ∧ apiServerHeir t rules = some rule
  · rw [if_pos hheir]
    cases t.encode? (forApiServer rule) .apiServer with
    | none => rw [ite_self]; rfl
    | some config =>
      show (KeyMap.insert ∅ Resource.apiServer.targetName config).get? target = _
      rw [KeyMap.get?_insert]
      exact if_congr (and_iff_left hheir).symm rfl rfl
  · rw [if_neg hheir, if_neg fun h => hheir h.2]
    rfl

/-! ## Rules installed on an empty discoverer -/

/-- No rules are installed and nothing is held. -/
structure Vacant (d : Discoverer) : Prop where
  sound : d.Sound
  pipelines : d.pipelines = ∅
  encoding : ∀ id target, d.roster.encoding id target = none

theorem vacant_start (settings : Settings) (nodeName : String) :
    (start settings nodeName).Vacant where
  sound := sound_start settings nodeName
  pipelines := rfl
  encoding id target := by
    rw [start, Roster.encoding_add_empty _ rfl]
    exact Roster.encoding_of_handler?_eq_none rfl target

theorem Vacant.encoding_installation (hd : d.Vacant) (rules : List Rule) (id : HandlerId)
    (target : String) : (d.installation rules).discoverer.roster.encoding id target = none := by
  have hw := d.installation_withdrawals rules
  rw [Option.eq_none_iff_forall_ne_some]
  intro config he
  exact nomatch (hd.encoding id target).symm.trans
    (Roster.Withdrawals.encoding hd.sound.consistent hw he)

theorem Vacant.kept_eq (hd : d.Vacant) (rules : List Rule) : d.kept rules = d := by
  have hmissing : d.missing rules = [] := by
    rw [missing, hd.pipelines]
    rfl
  rw [kept, hmissing]
  rfl

theorem Vacant.rule?_installation (hd : d.Vacant) (rules : List Rule) (name : String) :
    (d.installation rules).discoverer.rule? name = lastValid? rules name := by
  have hall := Sound.rule?_installAll (i := { discoverer := d.kept rules })
    (hd.sound.kept rules) rules name
  refine hall.trans ?_
  rw [hd.kept_eq, rule?, hd.pipelines]
  exact Option.or_none

theorem Vacant.encoders_installation (hd : d.Vacant) (rules : List Rule) :
    (d.installation rules).discoverer.encoders = d.encoders := by
  rw [installation, hd.kept_eq]
  exact encoders_installAll { discoverer := d } rules

/-- The rules that are installed, in their order, are the valid ones. -/
theorem Vacant.map_rule_inOrder (hd : d.Vacant) {rules : List Rule}
    (hnodup : (rules.map (·.name)).Nodup) :
    ((d.installation rules).discoverer.inOrder rules).map (·.rule) = rules.filter (·.isValid) := by
  rw [inOrder, List.map_filterMap, ← List.filterMap_eq_filter]
  refine List.filterMap_congr fun rule hrule => ?_
  refine (hd.rule?_installation rules rule.name).trans (Option.ext fun rule' => ?_)
  rw [lastValid?_eq_some_iff hnodup, Option.guard_eq_some_iff]
  constructor
  · rintro ⟨hmem, hname, hvalid⟩
    obtain rfl := List.inj_on_of_nodup_map hnodup hmem hrule hname
    exact ⟨rfl, hvalid⟩
  · rintro ⟨rfl, hvalid⟩
    exact ⟨hrule, rfl, hvalid⟩

theorem Vacant.performAll_calls_installation (hd : d.Vacant) {rules : List Rule}
    (hnodup : (rules.map (·.name)).Nodup) :
    (d.installation rules).discoverer.performAll (d.installation rules).calls =
      (d.installation rules).discoverer.served .apiServer
        (askers ((d.installation rules).discoverer.inOrder rules)) := by
  have hcalls := Sound.calls_installAll_of_nodup (i := { discoverer := d.kept rules })
    (hd.sound.kept rules) hnodup fun rule _ => by
      rw [hd.kept_eq, hd.pipelines]
      rfl
  rw [← performAll_apiServerCalls]
  exact congrArg _ hcalls

/-- The rules of a registry, in the order of a list, have the heir among them. -/
theorem Vacant.apiServerHeir_eq (hd : d.Vacant) {rules : List Rule}
    (hnodup : (rules.map (·.name)).Nodup) (registry : String) :
    apiServerHeir d.encoders (ofRegistry rules registry) =
      (((d.installation rules).discoverer.inOrder rules).find? fun p =>
        registryName p.rule.pluginType = registry && p.rule.answers d.encoders).map (·.rule) := by
  have hfind := List.find?_map (p := fun rule : Rule =>
      registryName rule.pluginType = registry && rule.answers d.encoders)
    (f := fun p : Pipeline => p.rule) (l := (d.installation rules).discoverer.inOrder rules)
  refine Eq.trans ?_ hfind
  rw [hd.map_rule_inOrder hnodup, apiServerHeir, ofRegistry, List.find?_filter, List.find?_filter]
  refine congrArg (fun f => List.find? f rules) (funext fun rule => ?_)
  simp only [Bool.decide_and, Bool.decide_eq_true]
  rw [Bool.and_comm (decide _) rule.isValid, Bool.and_assoc]

theorem Vacant.nodup_handlers_inOrder (hd : d.Vacant) {rules : List Rule}
    (hnodup : (rules.map (·.name)).Nodup) :
    (((d.installation rules).discoverer.inOrder rules).map (·.handler)).Nodup := by
  have hrules : ((d.installation rules).discoverer.inOrder rules).Nodup := by
    refine List.Nodup.of_map (·.rule) ?_
    rw [hd.map_rule_inOrder hnodup]
    exact (List.Nodup.of_map _ hnodup).filter _
  exact hrules.map_on fun p hp q hq he => (hd.sound.installation rules).eq_of_handler_eq
    (mem_values_of_mem_inOrder hp) (mem_values_of_mem_inOrder hq) he

theorem Vacant.owner?_installation (hd : d.Vacant) (rules : List Rule) (registry target : String) :
    (d.installation rules).discoverer.roster.owner? registry target = none := by
  rw [Option.eq_none_iff_forall_ne_some]
  intro i hi
  obtain ⟨config, he⟩ := Roster.holds_iff_encoding.mp
    (((hd.sound.installation rules).consistent _ _ _).mp hi).2
  exact nomatch (hd.encoding_installation rules i target).symm.trans he

/-- After everybody was asked for the API server the owner of its target in a registry is the
    handler of the heir. -/
theorem Vacant.owner?_asked_iff (hd : d.Vacant) {rules : List Rule}
    (hnodup : (rules.map (·.name)).Nodup) (registry : String) {p : Pipeline}
    (hp : p ∈ (d.installation rules).discoverer.pipelines.values) :
    ((d.installation rules).discoverer.performAll (d.installation rules).calls).roster.owner?
        registry Resource.apiServer.targetName = some p.handler ↔
      apiServerHeir d.encoders (ofRegistry rules registry) = some p.rule := by
  have he := hd.sound.installation rules
  have hmem : ∀ q ∈ (d.installation rules).discoverer.inOrder rules,
      q ∈ (d.installation rules).discoverer.pipelines.values := fun _ =>
    mem_values_of_mem_inOrder
  rw [hd.performAll_calls_installation hnodup,
    he.owner?_asked fun q => mem_handlers_of_mem_askers hmem, hd.owner?_installation,
    Option.none_or, he.find?_askers hmem, hd.encoders_installation, hd.apiServerHeir_eq hnodup,
    Option.map_eq_some_iff, Option.map_eq_some_iff]
  refine exists_congr fun q => and_congr_right fun hq => ?_
  have hq := hmem q (List.mem_of_find?_eq_some hq)
  exact ⟨fun hid => congrArg Pipeline.rule (he.eq_of_handler_eq hq hp hid),
    fun hrule => congrArg Pipeline.handler (he.eq_of_name_eq hq hp (congrArg Rule.name hrule))⟩

/-- What a pipeline holds of the API server after everybody was asked for it: nothing, unless its
    rule is the heir. -/
theorem Vacant.encoding_asked (hd : d.Vacant) {rules : List Rule}
    (hnodup : (rules.map (·.name)).Nodup) {p : Pipeline}
    (hp : p ∈ (d.installation rules).discoverer.inOrder rules) :
    ((d.installation rules).discoverer.performAll (d.installation rules).calls).roster.encoding
        p.handler Resource.apiServer.targetName =
      if apiServerHeir d.encoders (ofRegistry rules (registryName p.rule.pluginType)) =
          some p.rule then
        d.encoders.encode? (forApiServer p.rule) .apiServer
      else none := by
  have he := hd.sound.installation rules
  have hmem : ∀ q ∈ (d.installation rules).discoverer.inOrder rules,
      q ∈ (d.installation rules).discoverer.pipelines.values := fun _ =>
    mem_values_of_mem_inOrder
  have howner := hd.owner?_asked_iff hnodup (registryName p.rule.pluginType) (hmem p hp)
  rw [hd.performAll_calls_installation hnodup] at howner ⊢
  by_cases hkind : p.filter.kind = .apiServer
  · let asker : Pipeline := { p with rule := forApiServer p.rule }
    have hasker : asker ∈ askers ((d.installation rules).discoverer.inOrder rules) :=
      List.mem_map_of_mem (List.mem_filter.mpr ⟨hp, decide_eq_true hkind⟩)
    have hnodup' : ((askers ((d.installation rules).discoverer.inOrder rules)).map
        (·.handler)).Nodup := by
      rw [handlers_askers]
      exact (hd.nodup_handlers_inOrder hnodup).sublist (List.filter_sublist.map _)
    have hreg := he.registryOf?_of_mem (hmem p hp)
    have htype : (forApiServer p.rule).pluginType = p.rule.pluginType := rfl
    have hasked := he.encoding_asked (fun q => mem_handlers_of_mem_askers hmem) hnodup' .apiServer
      hasker hreg
    rw [hd.encoding_installation, Option.or_none, he.encode?_of_mem (hmem p hp) htype,
      hd.encoders_installation] at hasked
    exact hasked.trans (if_congr howner rfl rfl)
  · -- nobody asks it, and its rule cannot be the heir
    have hother : apiServerHeir d.encoders (ofRegistry rules (registryName p.rule.pluginType)) ≠
        some p.rule := by
      intro hheir
      have hanswers : p.rule.answers d.encoders = true :=
        List.find?_some (p := fun rule : Rule => rule.answers d.encoders) hheir
      exact hkind ((he.isForApiServer_iff (hmem p hp)).mp
        (of_decide_eq_true (Bool.and_eq_true_iff.mp hanswers).1))
    rw [if_neg hother, he.encoding_served_of_not_mem fun hasked =>
      hkind (he.kind_of_asked hmem (hmem p hp) hasked), hd.encoding_installation]

theorem Vacant.mem_inOrder (hd : d.Vacant) {rules : List Rule} {p : Pipeline}
    (hp : p ∈ (d.installation rules).discoverer.pipelines.values) :
    p ∈ (d.installation rules).discoverer.inOrder rules := by
  obtain ⟨k, hk⟩ := KeyMap.mem_values_iff.mp hp
  have hrule := hd.rule?_installation rules k
  rw [rule?, hk] at hrule
  have hname := (hd.sound.installation rules).named k p hk
  refine List.mem_filterMap.mpr ⟨p.rule, (mem_of_lastValid? hrule.symm).1, ?_⟩
  rw [hname, hk]

/-- What a rule holds once it was installed along with others. -/
theorem Vacant.holding_handleAll (hd : d.Vacant) (leading : Bool) {rules : List Rule}
    (hnodup : (rules.map (·.name)).Nodup) {p : Pipeline}
    (hp : p ∈ (d.handleAll leading rules).2.pipelines.values) :
    (d.handleAll leading rules).2.holding p = ⟨p.filter, p.rule,
      stock d.encoders leading (ofRegistry rules (registryName p.rule.pluginType)) p.rule⟩ := by
  have he := hd.sound.installation rules
  rw [pipelines_handleAll] at hp
  refine congrArg (Holding.mk p.filter p.rule) (KeyMap.ext_get? fun target => ?_)
  rw [get?_stock]
  show ((d.installation rules).discoverer.publishCount.performLeading leading
    (d.installation rules).calls).roster.encoding p.handler target = _
  cases leading with
  | false =>
    rw [if_neg fun h => Bool.false_ne_true h.2.1]
    exact hd.encoding_installation rules p.handler target
  | true =>
    show ((d.installation rules).discoverer.publishCount.performAll
      (d.installation rules).calls).roster.encoding p.handler target = _
    by_cases htarget : target = Resource.apiServer.targetName
    · subst htarget
      rw [roster_performAll_publishCount, hd.encoding_asked hnodup (hd.mem_inOrder hp)]
      exact if_congr (by simp) rfl rfl
    · rw [if_neg fun h => htarget h.1]
      refine (he.publishCount.encoding_performAll_of_ne fun c hc hreached => ?_).trans
        (hd.encoding_installation rules p.handler target)
      obtain ⟨id, rule, rfl⟩ := isForApiServer_of_mem_installation_calls d rules c hc
      exact htarget hreached.2

/-- The shelf that rules of one registry start with depends on nothing but these rules. -/
theorem Vacant.get?_shelf_handleAll (hd : d.Vacant) (leading : Bool) {rules : List Rule}
    (hnodup : (rules.map (·.name)).Nodup) (registry name : String) :
    ((d.handleAll leading rules).2.shelf registry).get? name =
      (lastValid? (ofRegistry rules registry) name).bind fun rule =>
        (ResourceFilter.compile rule).toOption.map fun filter =>
          ⟨filter, rule, stock d.encoders leading (ofRegistry rules registry) rule⟩ := by
  have he := hd.sound.installation rules
  have hrule := hd.rule?_installation rules name
  rw [get?_shelf, lastValid?_ofRegistry hnodup, ← hrule, rule?, pipelines_handleAll]
  cases hp : (d.installation rules).discoverer.pipelines.get? name with
  | none => rfl
  | some p =>
    rw [Option.map_some, Option.filter_some, Option.filter_some]
    by_cases hreg : registryName p.rule.pluginType = registry
    · subst hreg
      have hmem : p ∈ (d.handleAll leading rules).2.pipelines.values := by
        rw [pipelines_handleAll]
        exact KeyMap.mem_values_iff.mpr ⟨name, hp⟩
      simp only [decide_true, if_true, Option.map_some, Option.bind_some]
      rw [hd.holding_handleAll leading hnodup hmem, he.compiled name p hp]
      rfl
    · simp only [decide_eq_true_iff, if_neg hreg]
      rfl

theorem Vacant.shelf_handleAll_congr (hd : d.Vacant) (leading : Bool) {rules rules' : List Rule}
    (hnodup : (rules.map (·.name)).Nodup) (hnodup' : (rules'.map (·.name)).Nodup)
    {registry : String} (hsame : ofRegistry rules registry = ofRegistry rules' registry) :
    (d.handleAll leading rules).2.shelf registry =
      (d.handleAll leading rules').2.shelf registry := by
  refine KeyMap.ext_get? fun name => ?_
  rw [hd.get?_shelf_handleAll leading hnodup, hd.get?_shelf_handleAll leading hnodup', hsame]

theorem Vacant.rule?_handleAll (hd : d.Vacant) (leading : Bool) (rules : List Rule)
    (name : String) : (d.handleAll leading rules).2.rule? name = lastValid? rules name := by
  rw [rule?, pipelines_handleAll]
  exact hd.rule?_installation rules name

theorem Vacant.rule_mem_of_installed (hd : d.Vacant) {leading : Bool} {rules : List Rule}
    {p : Pipeline} (hp : p ∈ (d.handleAll leading rules).2.pipelines.values) : p.rule ∈ rules := by
  obtain ⟨k, hk⟩ := KeyMap.mem_values_iff.mp hp
  have hlast := hd.rule?_handleAll leading rules k
  rw [rule?, hk] at hlast
  exact (mem_of_lastValid? hlast.symm).1

theorem Vacant.exists_installed (hd : d.Vacant) (leading : Bool) {rules : List Rule}
    (hnodup : (rules.map (·.name)).Nodup) {rule : Rule} (hrule : rule ∈ rules)
    (hvalid : rule.isValid = true) :
    ∃ p ∈ (d.handleAll leading rules).2.pipelines.values, p.rule = rule := by
  have hlast := hd.rule?_handleAll leading rules rule.name
  rw [(lastValid?_eq_some_iff hnodup).mpr ⟨hrule, rfl, hvalid⟩, rule?,
    Option.map_eq_some_iff] at hlast
  obtain ⟨p, hp, he⟩ := hlast
  exact ⟨p, KeyMap.mem_values_iff.mpr ⟨rule.name, hp⟩, he⟩

theorem Vacant.encoding_handleAll_of_ne (hd : d.Vacant) (leading : Bool) {rules : List Rule}
    (hnodup : (rules.map (·.name)).Nodup) {p : Pipeline}
    (hp : p ∈ (d.handleAll leading rules).2.pipelines.values) {target : String}
    (hne : target ≠ Resource.apiServer.targetName) :
    (d.handleAll leading rules).2.roster.encoding p.handler target = none := by
  have hheld := congrArg (fun h : Holding => h.targets.get? target)
    (hd.holding_handleAll leading hnodup hp)
  exact hheld.trans ((get?_stock _ _ _ _ _).trans (if_neg fun h => hne h.1))

theorem Vacant.encoders_handleAll (hd : d.Vacant) (leading : Bool) (rules : List Rule) :
    (d.handleAll leading rules).2.encoders = d.encoders := by
  rw [← hd.encoders_installation rules]
  show ((d.installation rules).discoverer.publishCount.performLeading leading _).encoders = _
  unfold performLeading
  split
  · rw [performAll_eq]
    rfl
  · rfl

/-! ## The first resource -/

/-- Of rules of one registry that all claim a resource and can encode it, the one with the least
    name holds its target. -/
theorem Vacant.holds_iff_least (hd : d.Vacant) {rules : List Rule}
    (hnodup : (rules.map (·.name)).Nodup) {registry : String} {resource : Resource}
    (hkind : resource.kind ≠ .apiServer)
    (hreg : ∀ rule ∈ rules, rule.isValid = true ∧ registryName rule.pluginType = registry)
    (hclaim : ∀ rule ∈ rules, ∀ f, ResourceFilter.compile rule = .ok f → f.isMatch resource = true)
    (henc : ∀ rule ∈ rules, (d.encoders.encode? rule resource).isSome = true) {p : Pipeline}
    (hp : p ∈ (d.handleAll true rules).2.pipelines.values) :
    ((d.handleAll true rules).2.discover true resource).roster.holds p.handler
        resource.targetName = true ↔
      ∀ rule ∈ rules, p.rule.name ≤ rule.name := by
  let e := (d.handleAll true rules).2
  have he : e.Sound := hd.sound.handleAll true rules
  have hmem : ∀ q ∈ e.pipelines.values, q.rule ∈ rules := fun q => hd.rule_mem_of_installed
  have hrival : ∀ q ∈ e.pipelines.values, q ∈ e.rivals resource registry := by
    intro q hq
    obtain ⟨k, hk⟩ := KeyMap.mem_values_iff.mp hq
    refine mem_rivals.mpr ⟨hq, hclaim q.rule (hmem q hq) q.filter (he.compiled k q hk), ?_⟩
    rw [he.registryOf?_of_mem hq, (hreg q.rule (hmem q hq)).2]
  -- nobody holds the target before
  have hfree : ∀ q ∈ e.rivals resource registry,
      e.roster.owner? registry resource.targetName ≠ some q.handler := by
    intro q hq howner
    obtain ⟨config, hsome⟩ := Roster.holds_iff_encoding.mp ((he.consistent _ _ _).mp howner).2
    exact nomatch (hd.encoding_handleAll_of_ne true hnodup (mem_rivals.mp hq).1 fun h =>
      hkind (Resource.kind_eq_of_targetName_eq h)).symm.trans hsome
  obtain ⟨q, hq, howner, -, hleast⟩ := he.exists_owner_served
    (List.ne_nil_of_mem (hrival p hp)) fun q hq => by
      rw [he.encode?_of_mem (mem_rivals.mp hq).1 rfl, hd.encoders_handleAll]
      exact henc q.rule (hmem q (mem_rivals.mp hq).1)
  rw [← discover_eq_served (fun _ => rfl)
    (List.ne_nil_of_mem (List.mem_filter.mp (hrival p hp)).1)] at howner
  have hheld := ((he.discover true resource).consistent _ _ _).mp howner
  have hsame : (e.discover true resource).roster.holds p.handler resource.targetName = true ↔
      p = q := by
    refine ⟨fun hh => ?_, fun hpq => hpq ▸ hheld.2⟩
    have hregp := (mem_rivals.mp (hrival p hp)).2.2
    rw [← (he.discover_keeps true resource).registryOf?_eq] at hregp
    exact he.eq_of_handler_eq hp (mem_rivals.mp hq).1
      ((he.discover true resource).consistent.eq_of_holds (hregp.trans hheld.1.symm) hh hheld.2)
  refine hsame.trans ⟨?_, fun hfirst => ?_⟩
  · rintro rfl rule hin
    obtain ⟨r, hr, rfl⟩ := hd.exists_installed true hnodup hin (hreg rule hin).1
    exact hleast hfree r (hrival r hr)
  · exact he.eq_of_name_eq hp (mem_rivals.mp hq).1 (String.le_antisymm
      (hfirst q.rule (hmem q (mem_rivals.mp hq).1)) (hleast hfree p (hrival p hp)))

end Discoverer

end ScrapeDiscovery

import ScrapeDiscovery.Proofs.Discoverer.Stocking
import ScrapeDiscovery.Proofs.Scrape.Inputs

/-!
# Rules of different plugin types

The shelf that rules of one registry start with depends on nothing but these rules, and
from then on it takes reports by itself. So what rules of other plugin types there are
makes no difference to the rules of a type, as long as none of the others has its
registry name.

Registry names have dots where plugin types have slashes, so that two valid types may
well have one registry name. The rules of such types compete for targets like those of
one type. Only types of telegraf inputs can clash like this, and only with a dot in one
of them.

Results:
* `unaffected_of_not_clash`, `not_unaffected_of_clash`: plugin types apart, and with one registry.
* `Clash.telegraf`, `not_clash_of_no_dots`: which types can clash.
* `unaffected_iff_not_clash`: exactly which plugin types make a difference to a type.
-/

namespace ScrapeDiscovery.Discoverer

variable {d : Discoverer}

/-! ## Plugin types -/

/-- The installed rules of a plugin type with what they hold. -/
def holdings (d : Discoverer) (pluginType : String) : Shelf :=
  (d.pipelines.filter fun _ p => p.rule.pluginType = pluginType).map d.holding

/-- A discoverer that starts with a list of rules, after reports. -/
def afterReports (settings : Settings) (nodeName : String) (leading : Bool) (rules : List Rule)
    (reports : List Report) : Discoverer :=
  (start settings nodeName).run (.handleAll leading rules :: reports.map Report.operation)

theorem afterReports_present (settings : Settings) (nodeName : String) (leading : Bool)
    (rules : List Rule) (leading' : Bool) (resource : Resource) :
    afterReports settings nodeName leading rules [.present leading' resource] =
      ((start settings nodeName).handleAll leading rules).2.discover leading' resource := rfl

/-- Whatever rules of some other plugin types there are makes no difference to what the rules of a
    type hold. -/
def Unaffected (pluginType : String) (others : String → Prop) : Prop :=
  ∀ (settings : Settings) (nodeName : String) (leading : Bool) (rules rules' : List Rule)
    (reports : List Report), (rules.map (·.name)).Nodup → (rules'.map (·.name)).Nodup →
    rules.filter (·.pluginType = pluginType) = rules'.filter (·.pluginType = pluginType) →
    (∀ rule ∈ rules ++ rules', rule.pluginType ≠ pluginType → others rule.pluginType) →
      (afterReports settings nodeName leading rules reports).holdings pluginType =
        (afterReports settings nodeName leading rules' reports).holdings pluginType

/-- Two valid plugin types that have one registry name. -/
structure Clash (pluginType other : String) : Prop where
  ne : other ≠ pluginType
  valid : (Family.ofPluginType pluginType).isOk = true
  valid_other : (Family.ofPluginType other).isOk = true
  registryName_eq : registryName other = registryName pluginType

/-- The rules of a type are on the shelf of its registry. -/
theorem holdings_eq_filter (d : Discoverer) (pluginType : String) :
    d.holdings pluginType =
      (d.shelf (registryName pluginType)).filter fun _ h => h.rule.pluginType = pluginType := by
  refine KeyMap.ext_get? fun k => ?_
  rw [holdings, KeyMap.get?_map, KeyMap.get?_filter, KeyMap.get?_filter, get?_shelf]
  cases d.pipelines.get? k with
  | none => rfl
  | some p =>
    by_cases htype : p.rule.pluginType = pluginType
    · simp [htype, Option.filter_some, holding]
    · by_cases hreg : registryName p.rule.pluginType = registryName pluginType <;>
        simp [htype, hreg, Option.filter_some, holding]

theorem get?_holdings {name : String} {p : Pipeline} (hp : d.pipelines.get? name = some p)
    {pluginType : String} (htype : p.rule.pluginType = pluginType) :
    (d.holdings pluginType).get? name = some (d.holding p) := by
  rw [holdings, KeyMap.get?_map, KeyMap.get?_filter, hp, Option.filter_some,
    if_pos (decide_eq_true htype), Option.map_some]

theorem Sound.holdings_of_not_isOk (hs : d.Sound) {pluginType : String}
    (hinvalid : (Family.ofPluginType pluginType).isOk ≠ true) : d.holdings pluginType = ∅ := by
  refine KeyMap.ext_get? fun k => ?_
  rw [holdings, KeyMap.get?_map, KeyMap.get?_filter]
  refine (congrArg (Option.map d.holding) (Option.eq_none_iff_forall_ne_some.mpr
    fun p hp => ?_)).trans rfl
  obtain ⟨hp, htype⟩ := Option.filter_eq_some_iff.mp hp
  obtain ⟨h, -, hm⟩ := hs.made k p hp
  have hok := isOk_iff.mpr ⟨_, (makeHandler_eq_ok hm).2.1⟩
  rw [of_decide_eq_true htype] at hok
  exact hinvalid hok

/-- The rules of the registry of a type that nobody clashes with are those of the type. -/
theorem ofRegistry_eq_filter {rules : List Rule} {pluginType : String}
    (hvalid : (Family.ofPluginType pluginType).isOk = true)
    (hno : ∀ rule ∈ rules, ¬Clash pluginType rule.pluginType) :
    ofRegistry rules (registryName pluginType) =
      (rules.filter (·.pluginType = pluginType)).filter (·.isValid) := by
  rw [ofRegistry, List.filter_filter]
  refine List.filter_congr fun rule hrule => ?_
  cases hok : rule.isValid with
  | false => rw [Bool.and_false, Bool.false_and]
  | true =>
    rw [Bool.and_true, Bool.true_and, decide_eq_decide]
    refine ⟨fun hreg => ?_, fun htype => by rw [htype]⟩
    by_contra hne
    exact hno rule hrule ⟨hne, hvalid, (Bool.and_eq_true_iff.mp hok).2, hreg⟩

theorem unaffected_of_not_clash {pluginType : String} {others : String → Prop}
    (hno : ∀ other, others other → ¬Clash pluginType other) : Unaffected pluginType others := by
  intro settings nodeName leading rules rules' reports hnodup hnodup' hsame hothers
  have hsound : ∀ rules, ((start settings nodeName).handleAll leading rules).2.Sound := fun rules =>
    (sound_start settings nodeName).handleAll leading rules
  by_cases hvalid : (Family.ofPluginType pluginType).isOk = true
  swap
  · have hnone : ∀ rules, (afterReports settings nodeName leading rules reports).holdings
        pluginType = ∅ := fun rules => ((hsound rules).run _).holdings_of_not_isOk hvalid
    rw [hnone, hnone]
  have hapart : ∀ rule ∈ rules ++ rules', ¬Clash pluginType rule.pluginType :=
    fun rule hrule hclash => hno _ (hothers rule hrule hclash.ne) hclash
  have hfirst : ((start settings nodeName).handleAll leading rules).2.shelf
        (registryName pluginType) =
      ((start settings nodeName).handleAll leading rules').2.shelf (registryName pluginType) := by
    refine (vacant_start settings nodeName).shelf_handleAll_congr leading hnodup hnodup' ?_
    rw [ofRegistry_eq_filter hvalid fun rule hrule => hapart rule (List.mem_append_left _ hrule),
      ofRegistry_eq_filter hvalid fun rule hrule => hapart rule (List.mem_append_right _ hrule),
      hsame]
  have hlast : ∀ rules, (afterReports settings nodeName leading rules reports).shelf
      (registryName pluginType) = (((start settings nodeName).handleAll leading rules).2.shelf
        (registryName pluginType)).run (start settings nodeName).encoders reports := by
    intro rules
    refine ((hsound rules).shelf_run reports _).trans ?_
    rw [(vacant_start settings nodeName).encoders_handleAll]
  rw [holdings_eq_filter, holdings_eq_filter, hlast, hlast, hfirst]

/-! ## Plugin types with one registry -/

/-- A plugin type for telegraf inputs does not have the registry name of prometheus targets. -/
theorem registryName_ne_of_telegraf {pluginType : String}
    (hf : Family.ofPluginType pluginType = .ok .telegraf) :
    registryName pluginType ≠ registryName "prometheus" := by
  obtain ⟨p, -, rfl⟩ := Family.ofPluginType_eq_telegraf_iff.mp hf
  -- the first letters differ
  intro hsame
  have hhead := congrArg (fun s : String => s.toList.head?) hsame
  simp only [registryName, String.toList_append, String.toList_ofList, List.head?_map] at hhead
  revert hhead
  simp [telegrafPrefix]

/-- Types without dots have registry names of their own. -/
theorem not_clash_of_no_dots {pluginType other : String} (hdots : '.' ∉ pluginType.toList)
    (hdots' : '.' ∉ other.toList) : ¬Clash pluginType other := by
  intro hclash
  -- without dots the slashes can be put back
  have hback : ∀ s : String, '.' ∉ s.toList →
      (registryName s).toList.map (fun c => if c = '.' then '/' else c) = s.toList := by
    intro s hs
    rw [registryName, String.toList_ofList, List.map_map]
    refine (List.map_congr_left fun c hc => ?_).trans (List.map_id _)
    have hne : c ≠ '.' := fun he => hs (he ▸ hc)
    by_cases hslash : c = '/' <;> simp [hslash, hne]
  refine hclash.ne (String.toList_inj.mp ?_)
  rw [← hback other hdots', ← hback pluginType hdots, hclash.registryName_eq]

theorem Clash.telegraf {pluginType other : String} (h : Clash pluginType other) :
    Family.ofPluginType pluginType = .ok .telegraf ∧ Family.ofPluginType other = .ok .telegraf := by
  obtain ⟨family, hf⟩ := isOk_iff.mp h.valid
  obtain ⟨family', hf'⟩ := isOk_iff.mp h.valid_other
  cases family with
  | prometheus =>
    have htype := ofPluginType_eq_prometheus hf
    cases family' with
    | prometheus => exact absurd ((ofPluginType_eq_prometheus hf').trans htype.symm) h.ne
    | telegraf => exact absurd (htype ▸ h.registryName_eq) (registryName_ne_of_telegraf hf')
  | telegraf =>
    cases family' with
    | prometheus =>
      have hreg := h.registryName_eq.symm
      rw [ofPluginType_eq_prometheus hf'] at hreg
      exact absurd hreg (registryName_ne_of_telegraf hf)
    | telegraf => exact ⟨hf, hf'⟩

/-- Telegraf rules encode every resource that has an address. -/
theorem isSome_encode?_of_telegraf (settings : Settings) (nodeName : String) (rule : Rule)
    (hf : Family.ofPluginType rule.pluginType = .ok .telegraf) {resource : Resource}
    (haddress : hasAddress resource.ip = true) :
    ((start settings nodeName).encoders.encode? rule resource).isSome = true := by
  obtain ⟨e, he⟩ : ∃ e, (start settings nodeName).encoders.resolve rule.pluginType = .ok e :=
    exists_resolve hf
  have hfamily := family_of_resolve hf he
  rw [EncoderTable.encode?, he]
  cases e with
  | prometheus keys nodeName => cases hfamily
  | telegraf defaults =>
    show (Encoder.encodeTelegraf _ _ _ _ _).isSome = true
    rw [Encoder.encodeTelegraf, haddress]
    rfl

/-- A rule that claims `redisPod`, whatever its plugin type is. -/
def redisRule (name pluginType : String) : Rule :=
  { name, pluginType, selectors := { images := ["redis:*"] } }

/-- A pod with one container. -/
def redisPod : Resource :=
  { kind := .pod, ip := "10.0.0.1", object := { name := "x", ns := "ns" }
    containers := [{ image := "redis:6", ports := [] }] }

theorem isMatch_redisPod {name pluginType : String} {f : ResourceFilter}
    (hf : ResourceFilter.compile (redisRule name pluginType) = .ok f) :
    f.isMatch redisPod = true := by
  have hmap : (ResourceFilter.compile (redisRule name pluginType)).map (·.isMatch redisPod) =
      .ok true := rfl
  rw [hf] at hmap
  exact Except.ok.inj hmap

theorem isValid_redisRule (name : String) {pluginType : String} {family : Family}
    (hf : Family.ofPluginType pluginType = .ok family) :
    (redisRule name pluginType).isValid = true :=
  Bool.and_eq_true_iff.mpr ⟨rfl, isOk_iff.mpr ⟨family, hf⟩⟩

/-- Of telegraf rules of one registry that claim the pod, the one with the least name holds it. -/
theorem holds_redisPod_iff (types : List (String × String)) {registry : String}
    (hnodup : (types.map (·.1)).Nodup)
    (htypes : ∀ e ∈ types, Family.ofPluginType e.2 = .ok .telegraf ∧ registryName e.2 = registry)
    {name pluginType : String} (hmem : (name, pluginType) ∈ types) :
    ∃ h, ((afterReports {} "node-1" true (types.map fun e => redisRule e.1 e.2)
        [.present true redisPod]).holdings pluginType).get? name = some h ∧
      (h.targets.contains redisPod.targetName = true ↔ ∀ e ∈ types, name ≤ e.1) := by
  let rules := types.map fun e => redisRule e.1 e.2
  have hd := vacant_start {} "node-1"
  have hnames : (rules.map (·.name)).Nodup := by
    rw [List.map_map]
    exact hnodup
  have hvalid : ∀ rule ∈ rules, rule.isValid = true ∧ registryName rule.pluginType = registry :=
    List.forall_mem_map.mpr fun e he => ⟨isValid_redisRule e.1 (htypes e he).1, (htypes e he).2⟩
  have hclaim : ∀ rule ∈ rules, ∀ f, ResourceFilter.compile rule = .ok f →
      f.isMatch redisPod = true := List.forall_mem_map.mpr fun e _ f => isMatch_redisPod
  have henc : ∀ rule ∈ rules,
      ((start {} "node-1").encoders.encode? rule redisPod).isSome = true :=
    List.forall_mem_map.mpr fun e he =>
      isSome_encode?_of_telegraf _ _ (redisRule e.1 e.2) (htypes e he).1 (by decide)
  have hkind : redisPod.kind ≠ .apiServer := by decide
  obtain ⟨p, hp, hrule⟩ := hd.exists_installed true hnames (List.mem_map_of_mem hmem)
    (isValid_redisRule name (htypes _ hmem).1)
  have hleast := hd.holds_iff_least hnames hkind hvalid hclaim henc hp
  rw [hrule, List.forall_mem_map] at hleast
  have hget : (((start {} "node-1").handleAll true rules).2.discover true
      redisPod).pipelines.get? name = some p := by
    obtain ⟨k, hk⟩ := KeyMap.mem_values_iff.mp hp
    obtain rfl : name = k := by
      rw [← (hd.sound.handleAll true rules).named k p hk, hrule]
      rfl
    rw [pipelines_discover]
    exact hk
  rw [afterReports_present]
  exact ⟨_, get?_holdings hget (congrArg Rule.pluginType hrule), hleast⟩

theorem not_unaffected_of_clash {pluginType other : String} (hclash : Clash pluginType other)
    {others : String → Prop} (hother : others other) : ¬Unaffected pluginType others := by
  intro hsame
  obtain ⟨hf, hf'⟩ := hclash.telegraf
  have htypes : ∀ e ∈ [("a", other), ("b", pluginType)],
      Family.ofPluginType e.2 = .ok .telegraf ∧ registryName e.2 = registryName pluginType := by
    intro e he
    rcases List.mem_pair.mp he with rfl | rfl
    · exact ⟨hf', hclash.registryName_eq⟩
    · exact ⟨hf, rfl⟩
  have halone : ["b"].Nodup := by decide
  have hboth : ["a", "b"].Nodup := by decide
  obtain ⟨h, hget, hholds⟩ := holds_redisPod_iff [("b", pluginType)] halone
    (fun e he => htypes e (List.mem_cons_of_mem _ he)) List.mem_cons_self
  obtain ⟨h', hget', hholds'⟩ := holds_redisPod_iff [("a", other), ("b", pluginType)] hboth
    htypes (List.mem_cons_of_mem _ List.mem_cons_self)
  have heq : h = h' := by
    refine Option.some.inj (hget.symm.trans (Eq.trans ?_ hget'))
    refine congrArg (KeyMap.get? · "b") (hsame {} "node-1" true _ _ [.present true redisPod]
      halone hboth ?_ ?_)
    · simp [redisRule, hclash.ne]
    · intro rule hrule hne
      simp only [List.map_cons, List.map_nil, List.mem_append, List.mem_cons, List.not_mem_nil,
        or_false] at hrule
      rcases hrule with rfl | rfl | rfl
      · exact absurd rfl hne
      · exact hother
      · exact absurd rfl hne
  have hheld : h.targets.contains redisPod.targetName = true := by
    refine hholds.mpr fun e he => ?_
    obtain rfl := List.mem_singleton.mp he
    exact String.le_refl _
  rw [heq] at hheld
  have hle : "b" ≤ "a" := hholds'.mp hheld _ List.mem_cons_self
  exact absurd hle (by decide)

/-- Exactly the plugin types that clash with a type make a difference to what its rules hold:
    whatever the settings are, the rules of all other types, the reports and the leadership, the
    rules of the type hold the same targets with the same encodings at every moment. -/
theorem unaffected_iff_not_clash (pluginType : String) (others : String → Prop) :
    Unaffected pluginType others ↔ ∀ other, others other → ¬Clash pluginType other :=
  ⟨fun h _ hother hclash => not_unaffected_of_clash hclash hother h, unaffected_of_not_clash⟩

/-- Two rules of different plugin types with one registry name claim a pod. By itself the one holds
    its target, beside the other it holds nothing. -/
theorem exists_affected_by_other_type :
    let own := redisRule "b" "telegraf/a/b"
    let other := redisRule "a" "telegraf/a.b"
    let held := fun rules => (((afterReports {} "node-1" true rules
      [.present true redisPod]).holdings "telegraf/a/b").values.map (·.targets.keys))
    (own.isValid = true ∧ other.isValid = true ∧ ([other, own].map (·.name)).Nodup ∧
      [own].filter (·.pluginType = "telegraf/a/b") =
        [other, own].filter (·.pluginType = "telegraf/a/b")) ∧
    held [own] = [["pod/ns/x"]] ∧ held [other, own] = [[]] := by
  decide +kernel

end ScrapeDiscovery.Discoverer

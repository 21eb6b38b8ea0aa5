import ScrapeDiscovery.Proofs.Discoverer.Invariants
import ScrapeDiscovery.Proofs.Discoverer.Providers
import ScrapeDiscovery.Proofs.Discoverer.Stocking

/-!
# What a handler holds of a target

The plugin type of a rule decides three things one by one: the encoder of its
handler, the factory and the registry. What the handler holds of a target
nevertheless fits together: the configuration is named after the target, belongs to
the family of the plugin type, says whether a rule or an annotation asked for it,
and is complete enough to be scraped. A rule that replaces another one takes over
targets with configurations that it has not encoded itself, but it is of the same
plugin type.

Every live provider shows such a configuration, the one that the handler which built
it last still holds. So a provider and the targets of its name speak of the same
resource.

Results:
* `Roster.WellFormed.withdrawals`, `Sound.wellFormed_perform`: what keeps the held
  configurations well formed.
* `Sound.wellFormed_run`: so does every run.
* `Roster.Shown.phases`: live providers show what is held.
* `wellFormed_held`: both in every state of a run.
-/

namespace ScrapeDiscovery

/-! ## Well-formed configurations -/

/-- What a target cannot be scraped without: an address, or a plugin. -/
def ScrapeConfig.IsComplete : ScrapeConfig → Prop
  | .prometheus c => c.url ≠ ""
  | .telegraf c => c.plugins ≠ []

theorem Provider.missing?_eq_none_iff {config : ScrapeConfig} :
    missing? config = none ↔ config.IsComplete := by
  cases config <;> simp [missing?, ScrapeConfig.IsComplete]

/-- What a handler of a family may hold of a target. -/
structure ScrapeConfig.Fits (config : ScrapeConfig) (target : String) (family : Family)
    (origin : Origin) : Prop where
  name : config.name = target
  family : config.family = family
  origin : config.origin = origin
  complete : config.IsComplete

namespace Roster

variable {r r' : Roster}

/-- How targets of a handler are discovered, given the one for targets that ask for themselves. -/
def originOf (annotated id : HandlerId) : Origin := if id = annotated then .annotated else .rule

/-- Every handler holds configurations that fit its targets, its family and its part. -/
def WellFormed (r : Roster) (annotated : HandlerId) : Prop :=
  ∀ id target config, r.encoding id target = some config →
    ∃ family, r.factory? id = some family ∧
      config.Fits target family (originOf annotated id)

/-- Giving targets up leaves the rest as it is. -/
theorem WellFormed.withdrawals {annotated : HandlerId} (hw : r.WellFormed annotated)
    (hc : r.Consistent) (hws : Withdrawals r r') : r'.WellFormed annotated := by
  refine (Withdrawals.keep (P := (WellFormed · annotated)) ?_ hc hw hws).2
  intro r r' hc hw hstep id target config he
  obtain ⟨he, hfactory⟩ := hstep.encoding hc he
  obtain ⟨family, hf, hfits⟩ := hw id target config he
  exact ⟨family, hfactory.trans hf, hfits⟩

/-- Whatever is held after a handler was asked for a target was held before, or has just been
    encoded by this handler. -/
theorem encoding_handle_cases (hc : r.Consistent) {id i : HandlerId} {resource : Resource}
    {rule : Option Rule} {confirmed : Bool} {target : String} {config : ScrapeConfig}
    (he : (r.handle id resource rule confirmed).encoding i target = some config) :
    r.encoding i target = some config ∨
      i = id ∧ target = resource.targetName ∧ ∃ h, r.handler? id = some h ∧
        h.encoder.encode resource.ip resource.kind resource.object rule = .ok (some config) ∧
          h.encoder.family = h.factory := by
  by_cases hsame : i = id ∧ target = resource.targetName
  swap
  · rw [encoding_handle_of_ne hc hsame] at he
    exact Or.inl he
  obtain ⟨rfl, rfl⟩ := hsame
  cases hid : r.handler? i with
  | none =>
    rw [handle_of_handler?_eq_none hid] at he
    exact Or.inl he
  | some h =>
    rw [handle_eq hc hid] at he
    split at he
    · exact Or.inl he
    split at he
    · exact Or.inl he
    · next config' henc =>
      rw [renew_eq hid henc] at he
      split at he
      · exact Or.inl he
      split at he
      · next hfamily =>
        split at he
        · exact Or.inl he
        · -- the handler has published what it has just encoded
          have hnew := encoding_commit hid resource.targetName config' i resource.targetName
          rw [if_pos ⟨rfl, rfl⟩] at hnew
          obtain rfl : config' = config := Option.some.inj (hnew.symm.trans he)
          exact Or.inr ⟨rfl, rfl, h, rfl, henc, hfamily⟩
      · exact Or.inl he
    · split at he
      · next hgive =>
        simp only [Bool.and_eq_true] at hgive
        rw [release_eq hid (holds_iff_encoding.mpr (Option.isSome_iff_exists.mp hgive.1.1))] at he
        have hgone := encoding_dismiss r i (· == resource.targetName) i resource.targetName
        rw [if_pos ⟨rfl, beq_self_eq_true _⟩] at hgone
        exact nomatch hgone.symm.trans he
      · exact Or.inl he

/-- A handler that is asked under a rule exactly if it is one of a rule stays well formed. -/
theorem WellFormed.handle {annotated : HandlerId} (hw : r.WellFormed annotated)
    (hc : r.Consistent) {id : HandlerId} (resource : Resource) {rule : Option Rule}
    (hrule : rule.isSome = true ↔ id ≠ annotated) (confirmed : Bool) :
    (r.handle id resource rule confirmed).WellFormed annotated := by
  intro i target config he
  have hsame := (handle_keeps hc id resource rule confirmed).factory?_eq i
  rw [hsame]
  rcases encoding_handle_cases hc he with he | ⟨rfl, rfl, h, hid, henc, hfamily⟩
  · exact hw i target config he
  · obtain ⟨hname, hfam, hcomplete⟩ := Encoder.encode_spec henc
    refine ⟨h.factory, factory?_eq_some_iff.mpr ⟨h, hid, rfl⟩, hname, hfam.trans hfamily, ?_,
      Provider.missing?_eq_none_iff.mp hcomplete⟩
    rw [Encoder.encode_origin henc, originOf]
    by_cases hi : i = annotated
    · rw [if_pos hi, if_neg fun hsome => hrule.mp hsome hi]
    · rw [if_neg hi, if_pos (hrule.mpr hi)]

/-! ## Live providers -/

/-- Every live provider is named after the configuration that it shows, and some handler holds
    that configuration. -/
def Shown (r : Roster) : Prop :=
  ∀ k p, r.catalog.get? k = some p → p.name = k ∧ ∃ id family target,
    r.factory? id = some family ∧ r.encoding id target = some p.config ∧
      k = providerName family.factoryName target

theorem Shown.of_encoding (hs : r.Shown) (hcatalog : ∀ k, r'.catalog.get? k = r.catalog.get? k)
    (hencoding : ∀ id target config, r.encoding id target = some config →
      r'.encoding id target = some config ∧ r'.factory? id = r.factory? id) : r'.Shown := by
  intro k p hk
  rw [hcatalog] at hk
  obtain ⟨hname, id, family, target, hf, he, rfl⟩ := hs k p hk
  obtain ⟨he, hfactory⟩ := hencoding id target p.config he
  exact ⟨hname, id, family, target, hfactory.trans hf, he, rfl⟩

/-- Whoever gives a target up takes the provider of that name with it. -/
theorem Shown.dismiss (hs : r.Shown) (hc : r.Consistent) (id : HandlerId) (p : String → Bool) :
    (r.dismiss id p).Shown := by
  cases hid : r.handler? id with
  | none =>
    have hsame : r.dismiss id p = r.withdraw id p := by
      rw [Roster.dismiss, picked_of_handler?_eq_none hid]
      rfl
    rw [hsame]
    refine hs.of_encoding (fun _ => rfl) fun i target config he => ?_
    rw [withdraw_eq, factory?, handler?_update, encoding, entries, handler?_update, hid]
    split_ifs with hi
    · rw [hi, encoding_of_handler?_eq_none hid] at he
      cases he
    · exact ⟨he, rfl⟩
  | some h =>
    intro k q hk
    rw [catalog_dismiss hc hid] at hk
    split_ifs at hk with hgone
    obtain ⟨hname, i, family, target, hf, he, rfl⟩ := hs k q hk
    refine ⟨hname, i, family, target, ?_, ?_, rfl⟩
    · rw [((dismiss_retreat r id p).keeps hc).factory?_eq]
      exact hf
    · rw [encoding_dismiss, if_neg]
      · exact he
      · rintro ⟨rfl, hp⟩
        obtain ⟨h', hid', rfl⟩ := factory?_eq_some_iff.mp hf
        obtain rfl : h = h' := Option.some.inj (hid.symm.trans hid')
        have hheld := holds_iff_encoding.mpr ⟨q.config, he⟩
        exact hgone ⟨target, mem_picked.mpr ⟨hheld, hp⟩, rfl⟩

theorem Shown.withdrawal (hs : r.Shown) (hc : r.Consistent) (hw : Withdrawal r r') :
    r'.Shown := by
  cases hw with
  | retreat h =>
    cases h with
    | note log => exact hs
    | dismiss id p log => exact hs.dismiss hc id p
  | shut id =>
    refine hs.of_encoding (fun _ => rfl) fun i target config he => ?_
    rw [encoding_shut]
    exact ⟨he, factory?_shut r id i⟩
  | @add h hempty =>
    refine hs.of_encoding (fun k => by rw [catalog_add]) fun i target config he => ?_
    rw [encoding_add_empty r hempty]
    have hne := ne_nextId_of_holds (holds_iff_encoding.mpr ⟨config, he⟩)
    exact ⟨he, factory?_add_of_ne r h hne⟩

/-- Whoever publishes a target replaces the provider of that name. -/
theorem Shown.advance (hs : r.Shown) (ha : Advance r r') : r'.Shown := by
  cases ha with
  | note log mishaps => exact hs
  | @publish id h config rule resource log hid hopen hfree henc hfamily =>
    intro k p hk
    change (r.commit id h resource.targetName config).catalog.get? k = some p at hk
    have hfactory := factory?_commit hid resource.targetName config
    have hencoding := encoding_commit hid resource.targetName config
    rw [catalog_commit] at hk
    split_ifs at hk with hnew
    · cases hk
      refine ⟨rfl, id, h.factory, resource.targetName, ?_, ?_, hnew⟩
      · exact (hfactory id).trans (factory?_eq_some_iff.mpr ⟨h, hid, rfl⟩)
      · exact (hencoding id resource.targetName).trans (if_pos ⟨rfl, rfl⟩)
    · obtain ⟨hname, i, family, target, hf, he, rfl⟩ := hs k p hk
      refine ⟨hname, i, family, target, (hfactory i).trans hf, ?_, rfl⟩
      refine (hencoding i target).trans ((if_neg ?_).trans he)
      rintro ⟨rfl, rfl⟩
      obtain ⟨h', hid', rfl⟩ := factory?_eq_some_iff.mp hf
      obtain rfl : h = h' := Option.some.inj (hid.symm.trans hid')
      exact hnew rfl

theorem Shown.phases (hs : r.Shown) (hc : r.Consistent) (hp : Phases r r') : r'.Shown := by
  obtain ⟨mid, hw, ha⟩ := hp
  obtain ⟨hmid, hshown⟩ := Withdrawals.keep (fun _ _ hc hs hw => hs.withdrawal hc hw) hc hs hw
  exact (Advances.keep (fun _ _ _ hs ha => hs.advance ha) hmid hshown ha).2

end Roster

namespace Discoverer

open Roster

variable {d d' : Discoverer}

/-- Every configuration that a handler of the discoverer holds fits. -/
def WellFormed (d : Discoverer) : Prop := d.roster.WellFormed d.annotated

theorem WellFormed.withdrawals (hw : d.WellFormed) (hs : d.Sound)
    (hann : d'.annotated = d.annotated) (hws : Withdrawals d.roster d'.roster) :
    d'.WellFormed := by
  rw [WellFormed, hann]
  exact Roster.WellFormed.withdrawals hw hs.consistent hws

/-! ## Calls and runs -/

theorem Sound.wellFormed_perform (hs : d.Sound) (hw : d.WellFormed) {c : HandlerCall}
    (hc : d.IsOrderly c) : (d.perform c).WellFormed := by
  have hann : (d.perform c).annotated = d.annotated := by rw [perform_eq]
  cases c with
  | delete id target =>
    exact hw.withdrawals hs hann (.single (.retreat (delete_retreat d.roster id target)))
  | handle id resource rule =>
    have hne := hc id resource rule rfl
    exact Roster.WellFormed.handle hw hs.consistent resource (iff_of_true rfl hne) false
  | annotate resource =>
    have hnone : (none : Option Rule).isSome = true ↔ d.annotated ≠ d.annotated :=
      iff_of_false Bool.false_ne_true (not_not_intro rfl)
    show (d.annotate resource).WellFormed
    unfold annotate
    split
    · exact hw
    split
    · exact Roster.WellFormed.handle hw hs.consistent resource hnone _
    · refine hw.withdrawals hs rfl (.single (.retreat ?_))
      exact delete_retreat d.roster d.annotated resource.targetName

theorem invariant_wellFormed : Invariant (fun _ => True) WellFormed where
  withdrawals hs hw hann hws := hw.withdrawals hs hann hws
  perform hs hw hc _ := hs.wellFormed_perform hw hc

theorem Sound.wellFormed_run (hs : d.Sound) (hw : d.WellFormed) (ops : List Operation) :
    (d.run ops).WellFormed :=
  invariant_wellFormed.run trivial hs hw fun _ _ _ => trivial

theorem Sound.shown_run (hs : d.Sound) (hd : d.roster.Shown) (ops : List Operation) :
    (d.run ops).roster.Shown := by
  induction ops generalizing d with
  | nil => exact hd
  | cons op ops ih => exact ih (hs.step op) (hd.phases hs.consistent (hs.step_phases op))

theorem wellFormed_start (settings : Settings) (nodeName : String) :
    (start settings nodeName).WellFormed := by
  intro id target config he
  rw [(vacant_start settings nodeName).encoding] at he
  cases he

theorem shown_start (settings : Settings) (nodeName : String) :
    (start settings nodeName).roster.Shown := by
  intro k p hk
  rw [show (start settings nodeName).roster.catalog = ∅ from Roster.catalog_add _ _] at hk
  cases hk

/-! ## The targets that are shown -/

theorem mem_targets_iff {t : TargetSummary} :
    t ∈ d.targets ↔
      (∃ p ∈ d.pipelines.values, d.roster.encoding p.handler t.name = some t.config ∧
        t.rule = p.rule.name ∧ t.pluginType = p.rule.pluginType) ∨
      (d.roster.encoding d.annotated t.name = some t.config ∧
        t.rule = annotatedRule ∧ t.pluginType = annotatedType) := by
  have hof : ∀ rule pluginType id, t ∈ d.targetsOf rule pluginType id ↔
      d.roster.encoding id t.name = some t.config ∧ t.rule = rule ∧ t.pluginType = pluginType := by
    intro rule pluginType id
    obtain ⟨name, rule', pluginType', config⟩ := t
    simp only [targetsOf, List.mem_map, Prod.exists, KeyMap.mem_toList_iff, Roster.encoding,
      TargetSummary.mk.injEq]
    constructor
    · rintro ⟨name', config', he, rfl, rfl, rfl, rfl⟩
      exact ⟨he, rfl, rfl⟩
    · rintro ⟨he, rfl, rfl⟩
      exact ⟨name, config, he, rfl, rfl, rfl, rfl⟩
  rw [targets, List.mem_append, List.mem_flatMap, hof]
  simp only [hof]

/-- What is held is shown. -/
theorem Sound.exists_mem_targets (hs : d.Sound) {id : HandlerId} {target : String}
    {config : ScrapeConfig} (he : d.roster.encoding id target = some config) :
    ∃ t ∈ d.targets, t.name = target ∧ t.config = config := by
  have hid := hs.mem_installed_of_holds (Roster.holds_iff_encoding.mpr ⟨config, he⟩)
  rcases mem_installed.mp hid with hin | rfl
  · obtain ⟨k, p, hp, rfl⟩ := mem_handlers.mp hin
    refine ⟨⟨target, p.rule.name, p.rule.pluginType, config⟩, ?_, rfl, rfl⟩
    exact mem_targets_iff.mpr (Or.inl ⟨p, KeyMap.mem_values_iff.mpr ⟨k, hp⟩, he, rfl, rfl⟩)
  · refine ⟨⟨target, annotatedRule, annotatedType, config⟩, ?_, rfl, rfl⟩
    exact mem_targets_iff.mpr (Or.inr ⟨he, rfl, rfl⟩)

/-- What is shown is held by an installed handler of the family of its configuration. -/
theorem WellFormed.of_mem_targets (hw : d.WellFormed) {t : TargetSummary} (ht : t ∈ d.targets) :
    ∃ id ∈ d.installed, d.roster.factory? id = some t.config.family ∧
      d.roster.encoding id t.name = some t.config ∧ t.config.name = t.name := by
  have hfits : ∀ id, d.roster.encoding id t.name = some t.config →
      d.roster.factory? id = some t.config.family ∧ t.config.name = t.name := by
    intro id he
    obtain ⟨family, hf, hfits⟩ := hw id t.name t.config he
    exact ⟨hf.trans (congrArg some hfits.family.symm), hfits.name⟩
  rcases mem_targets_iff.mp ht with ⟨p, hp, he, -⟩ | ⟨he, -⟩
  · have hid := mem_installed.mpr (Or.inl (List.mem_map_of_mem hp))
    exact ⟨p.handler, hid, (hfits _ he).1, he, (hfits _ he).2⟩
  · exact ⟨d.annotated, mem_installed.mpr (Or.inr rfl), (hfits _ he).1, he, (hfits _ he).2⟩

/-- The handlers of a rule have the family of its plugin type. -/
theorem Sound.factory?_of_pipeline (hs : d.Sound) {p : Pipeline} (hp : p ∈ d.pipelines.values) :
    ∃ family, Family.ofPluginType p.rule.pluginType = .ok family ∧
      d.roster.factory? p.handler = some family := by
  obtain ⟨k, hk⟩ := KeyMap.mem_values_iff.mp hp
  obtain ⟨h, hid, hm⟩ := hs.made k p hk
  exact ⟨h.factory, (makeHandler_eq_ok hm).2.1, Roster.factory?_eq_some_iff.mpr ⟨h, hid, rfl⟩⟩

theorem Sound.factory?_annotated (hs : d.Sound) :
    d.roster.factory? d.annotated = some .prometheus := by
  obtain ⟨_, _, -, hb⟩ := hs.setup
  obtain ⟨h, hid, hb⟩ := Option.map_eq_some_iff.mp hb
  exact Roster.factory?_eq_some_iff.mpr ⟨h, hid, congrArg TargetHandler.factory hb⟩

/-- In every state of a run whatever a handler of a rule holds of a target has the name of the
    target, the family of the plugin type and the origin of a rule, and is complete; likewise for
    the targets that asked for themselves, which are prometheus targets. All that is held is shown
    among the targets, and the provider of the name and family of a shown target, if it is live,
    shows a configuration that one of that name and family has. For prometheus targets it is live
    and shows the very same configuration. -/
theorem wellFormed_held (settings : Settings) (nodeName : String) (ops : List Operation) :
    let d := (start settings nodeName).run ops
    (∀ id target config, d.roster.encoding id target = some config →
      id ∈ d.installed ∧ ∃ t ∈ d.targets, t.name = target ∧ t.config = config) ∧
    (∀ p ∈ d.pipelines.values, ∃ family, Family.ofPluginType p.rule.pluginType = .ok family ∧
      ∀ target config, d.roster.encoding p.handler target = some config →
        config.Fits target family .rule) ∧
    (∀ target config, d.roster.encoding d.annotated target = some config →
      config.Fits target .prometheus .annotated) ∧
    ∀ t ∈ d.targets,
      (∀ p, d.roster.catalog.get? (providerName t.config.family.factoryName t.name) = some p →
        p.name = providerName t.config.family.factoryName t.name ∧
          p.config.name = t.name ∧ p.config.family = t.config.family ∧
            ∃ t' ∈ d.targets, t'.name = t.name ∧ t'.config = p.config) ∧
      (t.config.family = .prometheus →
        (d.roster.catalog.get? (providerName t.config.family.factoryName t.name)).map (·.config) =
          some t.config) := by
  intro d
  have hs : d.Sound := sound_run settings nodeName ops
  have hw : d.WellFormed :=
    (sound_start settings nodeName).wellFormed_run (wellFormed_start settings nodeName) ops
  have hshown : d.roster.Shown :=
    (sound_start settings nodeName).shown_run (shown_start settings nodeName) ops
  refine ⟨fun id target config he => ?_, fun p hp => ?_, fun target config he => ?_,
    fun t ht => ⟨fun p hk => ?_, fun hprometheus => ?_⟩⟩
  · have hheld := Roster.holds_iff_encoding.mpr ⟨config, he⟩
    exact ⟨hs.mem_installed_of_holds hheld, hs.exists_mem_targets he⟩
  · obtain ⟨family, htype, hfactory⟩ := hs.factory?_of_pipeline hp
    refine ⟨family, htype, fun target config he => ?_⟩
    obtain ⟨family', hf, hfits⟩ := hw p.handler target config he
    obtain rfl := Option.some.inj (hfactory.symm.trans hf)
    rwa [Roster.originOf, if_neg (hs.handler_ne_annotated hp)] at hfits
  · obtain ⟨family, hf, hfits⟩ := hw d.annotated target config he
    obtain rfl := Option.some.inj (hs.factory?_annotated.symm.trans hf)
    rwa [Roster.originOf, if_pos rfl] at hfits
  · obtain ⟨hname, id, family, target, hf, he, hk⟩ := hshown _ p hk
    obtain ⟨rfl, rfl⟩ := providerName_inj.mp hk
    obtain ⟨family, hf', hfits⟩ := hw id t.name p.config he
    obtain rfl := Option.some.inj (hf.symm.trans hf')
    exact ⟨hname, hfits.name, hfits.family, hs.exists_mem_targets he⟩
  · obtain ⟨id, hid, hf, he, -⟩ := hw.of_mem_targets ht
    have hbacked : d.Backed .prometheus t.name :=
      backed_of_never_contested (sound_start settings nodeName)
        (backed_start settings nodeName .prometheus t.name) fun ops' _ =>
          (sound_run settings nodeName ops').not_contested_prometheus t.name
    rw [hprometheus] at hf ⊢
    rw [hbacked id hid t.config hf he]
    rfl

end Discoverer

end ScrapeDiscovery

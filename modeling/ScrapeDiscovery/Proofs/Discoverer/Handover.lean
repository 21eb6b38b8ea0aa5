import ScrapeDiscovery.Proofs.Discoverer.Holding
import ScrapeDiscovery.Proofs.Rule.Selection

/-!
# What installed rules start from

Making the rules of a list the installed ones removes some pipelines, replaces
others and makes new ones. A pipeline that stands there afterwards either has the
handler that stood under its name before, which then was in use all the time and
has kept every encoding, or a new handler, which holds nothing. `Inherits` says
so, and it holds along any sequence of removals and installations. Only after
them the rules for the API server ask for their target, and each asks the handler
under its own name.

Results:
* `Sound.installAll_inherits`: installing rules, one after the other.
* `asked_installAll`: whom the rules for the API server ask.
* `Sound.handleAll_inherits`: the two together, for a complete list of rules.
-/

namespace ScrapeDiscovery

/-- Whether a rule is one for the API server. -/
def Rule.IsForApiServer (rule : Rule) : Prop :=
  ResourceKind.ofName? rule.selectors.resourceType = some .apiServer

instance (rule : Rule) : Decidable rule.IsForApiServer :=
  inferInstanceAs (Decidable (_ = _))

/-- A filter is for the kind that its rule names. -/
theorem ResourceFilter.kind_of_compile {rule : Rule} {f : ResourceFilter}
    (hf : compile rule = .ok f) :
    ResourceKind.ofName? rule.selectors.resourceType = some f.kind :=
  (compile_eq_ok_iff.mp hf).1

theorem Roster.encoding_close_of_ne {r : Roster} (hc : r.Consistent) {id i : HandlerId}
    (hne : i ≠ id) (target : String) : (r.close id).encoding i target = r.encoding i target := by
  have hi := (handler?_close hc id i).trans (if_neg hne)
  simp only [encoding, entries, hi]

namespace Discoverer

/-! ## Removing and installing -/

/-- Every pipeline of the second state has the handler that stood under its name in the first one,
    with the same encodings and for a rule of the same type, or a new one that holds nothing. -/
structure Inherits (d d' : Discoverer) : Prop where
  nextId_le : d.roster.nextId ≤ d'.roster.nextId
  origin : ∀ k p', d'.pipelines.get? k = some p' →
    (∃ p, d.pipelines.get? k = some p ∧ p.handler = p'.handler ∧
        p.rule.pluginType = p'.rule.pluginType ∧
        ∀ target, d'.roster.encoding p'.handler target = d.roster.encoding p'.handler target) ∨
      d.roster.nextId ≤ p'.handler ∧ ∀ target, d'.roster.encoding p'.handler target = none

theorem Inherits.refl (d : Discoverer) : Inherits d d :=
  ⟨Nat.le_refl _, fun _ p hp => Or.inl ⟨p, hp, rfl, rfl, fun _ => rfl⟩⟩

theorem Inherits.trans {d d' d'' : Discoverer} (h : Inherits d d') (h' : Inherits d' d'') :
    Inherits d d'' := by
  refine ⟨Nat.le_trans h.nextId_le h'.nextId_le, fun k p'' hp'' => ?_⟩
  rcases h'.origin k p'' hp'' with ⟨p', hp', hid', htype', henc'⟩ | ⟨hnew, hnone⟩
  · rcases h.origin k p' hp' with ⟨p, hp, hid, htype, henc⟩ | ⟨hnew, hnone⟩
    · refine Or.inl ⟨p, hp, hid.trans hid', htype.trans htype', fun target => ?_⟩
      rw [henc', ← hid', henc]
    · refine Or.inr ⟨hid' ▸ hnew, fun target => ?_⟩
      rw [henc', ← hid', hnone]
  · exact Or.inr ⟨Nat.le_trans h.nextId_le hnew, hnone⟩

theorem Sound.lt_nextId {d : Discoverer} (hs : d.Sound) {k : String} {p : Pipeline}
    (hp : d.pipelines.get? k = some p) : p.handler < d.roster.nextId := by
  obtain ⟨h, hid, -⟩ := hs.made k p hp
  exact Roster.lt_nextId_of_handler? hid

theorem Sound.teardown_inherits {d : Discoverer} (hs : d.Sound) (name : String) :
    Inherits d (d.teardown name) := by
  cases hold : d.pipelines.get? name with
  | none =>
    rw [teardown_of_get?_eq_none hold]
    exact .refl d
  | some old =>
    rw [teardown_of_get? hold]
    refine ⟨Nat.le_of_eq (Roster.nextId_close _ _).symm, fun k p hp => Or.inl ?_⟩
    obtain ⟨hk, hp⟩ := KeyMap.get?_erase_eq_some hp
    have hne : p.handler ≠ old.handler := fun he => hk (hs.distinct k name p old hp hold he)
    exact ⟨p, hp, rfl, rfl, Roster.encoding_close_of_ne hs.consistent hne⟩

theorem Sound.teardownAll_inherits {d : Discoverer} (hs : d.Sound) (names : List String) :
    Inherits d (names.foldl Discoverer.teardown d) := by
  induction names generalizing d with
  | nil => exact .refl d
  | cons name names ih => exact (hs.teardown_inherits name).trans (ih (hs.teardown name))

theorem Sound.recreate_inherits {d : Discoverer} (hs : d.Sound) (rule : Rule)
    (filter : ResourceFilter) {h : TargetHandler} (hempty : h.entries = ∅) :
    Inherits d (d.recreate rule filter h).2 := by
  have hadd : (d.roster.add h).nextId = d.roster.nextId + 1 := by
    simp [Roster.nextId, Roster.add, Roster.openRegistry_handlers]
  have hnew : ∀ target, (d.roster.add h).encoding d.roster.nextId target = none := by
    intro target
    rw [Roster.encoding_add_empty _ hempty,
      Roster.encoding_of_handler?_eq_none (Roster.handler?_nextId _)]
  cases hold : d.pipelines.get? rule.name with
  | none =>
    have hrec : (d.recreate rule filter h).2 =
        { d with
          roster := d.roster.add h
          pipelines := d.pipelines.insert rule.name ⟨filter, rule, d.roster.nextId⟩ } := by
      simp only [Discoverer.recreate, Discoverer.teardown, hold]
    rw [hrec]
    refine ⟨hadd ▸ Nat.le_succ _, fun k p hp => ?_⟩
    rcases KeyMap.get?_insert_eq_some hp with ⟨-, rfl⟩ | ⟨-, hp⟩
    · exact Or.inr ⟨Nat.le_refl _, hnew⟩
    · exact Or.inl ⟨p, hp, rfl, rfl, Roster.encoding_add_empty _ hempty p.handler⟩
  | some old =>
    have hrec : (d.recreate rule filter h).2 =
        { d with
          roster := (d.roster.add h).close old.handler
          pipelines :=
            (d.pipelines.erase rule.name).insert rule.name ⟨filter, rule, d.roster.nextId⟩ } := by
      simp only [Discoverer.recreate, Discoverer.teardown, hold]
    have hclose : ∀ {i}, i ≠ old.handler → ∀ target,
        ((d.roster.add h).close old.handler).encoding i target =
          (d.roster.add h).encoding i target :=
      Roster.encoding_close_of_ne (hs.consistent.add hempty)
    have hlast : ((d.roster.add h).close old.handler).nextId = d.roster.nextId + 1 :=
      (Roster.nextId_close _ _).trans hadd
    rw [hrec]
    refine ⟨hlast ▸ Nat.le_succ _, fun k p hp => ?_⟩
    rcases KeyMap.get?_insert_eq_some hp with ⟨-, rfl⟩ | ⟨hk, hp⟩
    · refine Or.inr ⟨Nat.le_refl _, fun target => ?_⟩
      have hne := Nat.ne_of_gt (hs.lt_nextId hold)
      exact (hclose hne target).trans (hnew target)
    · obtain ⟨-, hp⟩ := KeyMap.get?_erase_eq_some hp
      refine Or.inl ⟨p, hp, rfl, rfl, fun target => ?_⟩
      have hne : p.handler ≠ old.handler := fun he =>
        hk (hs.distinct k rule.name p old hp hold he)
      exact (hclose hne target).trans (Roster.encoding_add_empty _ hempty _ _)

theorem Sound.install_inherits {d d' : Discoverer} (hs : d.Sound) {rule : Rule} {p : Pipeline}
    (hi : d.install rule = .ok (p, d')) : Inherits d d' := by
  obtain ⟨-, hrule, ⟨old, hold, htype, hid, rfl⟩ | ⟨h, hm, hrec⟩⟩ := install_eq_ok hi
  · refine ⟨Nat.le_refl _, fun k q hq => Or.inl ?_⟩
    rcases KeyMap.get?_insert_eq_some hq with ⟨rfl, rfl⟩ | ⟨-, hq⟩
    · exact ⟨old, hold, hid.symm, by rw [htype, hrule], fun _ => rfl⟩
    · exact ⟨q, hq, rfl, rfl, fun _ => rfl⟩
  · obtain ⟨-, -, -, -, hempty, -⟩ := makeHandler_eq_ok hm
    have hrecreate := hs.recreate_inherits rule p.filter hempty
    rwa [hrec] at hrecreate

theorem Sound.installStep_inherits {i : Installation} (hs : i.discoverer.Sound) (rule : Rule) :
    Inherits i.discoverer (i.step rule).discoverer := by
  unfold Installation.step
  split
  · next hi => exact hs.install_inherits hi
  · exact .refl _

theorem Sound.installAll_inherits {i : Installation} (hs : i.discoverer.Sound)
    (rules : List Rule) :
    Inherits i.discoverer (rules.foldl Installation.step i).discoverer := by
  induction rules generalizing i with
  | nil => exact .refl _
  | cons rule rules ih =>
    exact (hs.installStep_inherits rule).trans (ih (hs.installStep rule))

/-! ## Asking for the API server -/

/-- Where the handler of a call is still in use, it stands under the name of one of the rules for
    the API server. -/
def Asked (d : Discoverer) (rules : List Rule) (c : HandlerCall) : Prop :=
  ∃ id, c.id? = some id ∧ id < d.roster.nextId ∧
    ∃ rule ∈ rules, rule.IsForApiServer ∧
      ∀ k p, d.pipelines.get? k = some p → p.handler = id → k = rule.name

theorem Asked.inherits {d d' : Discoverer} {rules : List Rule} {c : HandlerCall}
    (hc : d.Asked rules c) (hi : Inherits d d') : d'.Asked rules c := by
  obtain ⟨id, hid, hlt, rule, hrule, hfor, honly⟩ := hc
  refine ⟨id, hid, Nat.lt_of_lt_of_le hlt hi.nextId_le, rule, hrule, hfor, fun k p' hp' he => ?_⟩
  rcases hi.origin k p' hp' with ⟨p, hp, hsame, -⟩ | ⟨hnew, -⟩
  · exact honly k p hp (hsame.trans he)
  · -- a new handler has not been asked for anything yet
    exact absurd hlt (Nat.not_lt_of_le (he ▸ hnew))

theorem Asked.mono {d : Discoverer} {rules rules' : List Rule} {c : HandlerCall}
    (hc : d.Asked rules c) (hsub : ∀ rule ∈ rules, rule ∈ rules') : d.Asked rules' c := by
  obtain ⟨id, hid, hlt, rule, hrule, hrest⟩ := hc
  exact ⟨id, hid, hlt, rule, hsub rule hrule, hrest⟩

theorem install_get? {d d' : Discoverer} {rule : Rule} {p : Pipeline}
    (hi : d.install rule = .ok (p, d')) : d'.pipelines.get? rule.name = some p := by
  obtain ⟨-, -, ⟨old, -, -, -, rfl⟩ | ⟨h, -, hrec⟩⟩ := install_eq_ok hi
  · exact KeyMap.get?_insert_self _ _ _
  · obtain ⟨hp, rfl⟩ := Prod.mk.inj hrec
    rw [← hp]
    exact KeyMap.get?_insert_self _ _ _

/-- A rule that has just been installed asks its own handler. -/
theorem Sound.asked_install {d d' : Discoverer} (hs : d.Sound) {rule : Rule} {p : Pipeline}
    (hi : d.install rule = .ok (p, d')) {c : HandlerCall} (hc : c ∈ apiServerCalls p) :
    d'.Asked [rule] c := by
  have hs' : d'.Sound := hs.install hi
  have hp : d'.pipelines.get? rule.name = some p := install_get? hi
  obtain ⟨hf, hrule, -⟩ := install_eq_ok hi
  unfold apiServerCalls at hc
  split at hc
  · next hkind =>
    obtain rfl := List.mem_singleton.mp hc
    refine ⟨p.handler, rfl, hs'.lt_nextId hp, rule, List.mem_singleton_self rule, ?_, ?_⟩
    · exact (ResourceFilter.kind_of_compile hf).trans (congrArg some hkind)
    · exact fun k q hq he => hs'.distinct k rule.name q p hq hp he
  · cases hc

theorem asked_installFrom {i : Installation} (hs : i.discoverer.Sound) {before : List Rule}
    (hi : ∀ c ∈ i.calls, i.discoverer.Asked before c) (rules : List Rule) :
    ∀ c ∈ (rules.foldl Installation.step i).calls,
      (rules.foldl Installation.step i).discoverer.Asked (before ++ rules) c := by
  induction rules generalizing i before with
  | nil =>
    rw [List.append_nil]
    exact hi
  | cons rule rules ih =>
    have hstep : ∀ c ∈ (i.step rule).calls,
        (i.step rule).discoverer.Asked (before ++ [rule]) c := by
      intro c hc
      have hinherits := hs.installStep_inherits rule
      unfold Installation.step at hc hinherits ⊢
      split at hc
      · next hinstall =>
        rcases List.mem_append.mp hc with hc | hc
        · refine ((hi c hc).inherits ?_).mono fun _ => List.mem_append_left [rule]
          simpa only [hinstall] using hinherits
        · exact (hs.asked_install hinstall hc).mono fun _ => List.mem_append_right before
      · exact (hi c hc).mono fun _ => List.mem_append_left [rule]
    have hrest := ih (hs.installStep rule) hstep
    rwa [List.append_assoc, List.singleton_append] at hrest

theorem asked_installAll {d : Discoverer} (hs : d.Sound) (rules : List Rule) :
    ∀ c ∈ (rules.foldl Installation.step { discoverer := d }).calls,
      (rules.foldl Installation.step { discoverer := d }).discoverer.Asked rules c :=
  have hi : ∀ c ∈ ({ discoverer := d } : Installation).calls, d.Asked [] c :=
    fun _ h => absurd h List.not_mem_nil
  asked_installFrom hs hi rules

/-! ## A complete list of rules -/

/-- After a complete list of rules was made the installed one, every pipeline holds of a target what
    the handler under its name held before, or nothing if its handler is new; where the target is
    the API server's, this is so if no rule for the API server in the list has its name. -/
theorem Sound.handleAll_inherits {d : Discoverer} (hs : d.Sound) (leading : Bool)
    {rules : List Rule} {k : String} {p' : Pipeline} {target : String}
    (hp' : (d.handleAll leading rules).2.pipelines.get? k = some p')
    (htarget : target = Resource.apiServer.targetName →
      ∀ rule ∈ rules, rule.name = k → ¬rule.IsForApiServer) :
    (∃ p, d.pipelines.get? k = some p ∧ p.handler = p'.handler ∧
        p.rule.pluginType = p'.rule.pluginType ∧
        (d.handleAll leading rules).2.roster.encoding p'.handler target =
          d.roster.encoding p'.handler target) ∨
      d.roster.nextId ≤ p'.handler ∧
        (d.handleAll leading rules).2.roster.encoding p'.handler target = none := by
  let cleared : Discoverer := (d.missing rules).foldl Discoverer.teardown d
  have hcleared : cleared.Sound := hs.teardownAll (d.missing rules)
  let i : Installation := rules.foldl Installation.step { discoverer := cleared }
  have hi : i.discoverer.Sound := Sound.installAll (i := { discoverer := cleared }) hcleared rules
  have hinherits : Inherits d i.discoverer :=
    (hs.teardownAll_inherits (d.missing rules)).trans
      (Sound.installAll_inherits (i := { discoverer := cleared }) hcleared rules)
  have hasked : ∀ c ∈ i.calls, i.discoverer.Asked rules c :=
    asked_installAll hcleared rules
  have hfor : ∀ c ∈ i.calls, c.IsForApiServer :=
    isForApiServer_of_mem_installation (fun _ h => absurd h List.not_mem_nil) rules
  have hinstalled : i.discoverer.pipelines.get? k = some p' := by
    have hsame := (performLeading_pipelines i.discoverer.publishCount leading i.calls).1
    exact (congrArg (KeyMap.get? · k) hsame).symm.trans hp'
  -- the calls for the API server do not reach the handler
  have hcalls : (d.handleAll leading rules).2.roster.encoding p'.handler target =
      i.discoverer.roster.encoding p'.handler target := by
    show (i.discoverer.publishCount.performLeading leading i.calls).roster.encoding _ _ = _
    unfold Discoverer.performLeading
    split
    · refine hi.publishCount.encoding_performAll_of_ne fun c hc hreached => ?_
      obtain ⟨id, rule, rfl⟩ := hfor c hc
      obtain ⟨_, hid, -, rule', hrule', hisFor, honly⟩ := hasked _ hc
      cases hid
      exact htarget hreached.2 rule' hrule' (honly k p' hinstalled hreached.1).symm hisFor
    · rfl
  rw [hcalls]
  rcases hinherits.origin k p' hinstalled with ⟨p, hp, hid, htype, henc⟩ | ⟨hnew, hnone⟩
  · exact Or.inl ⟨p, hp, hid, htype, henc target⟩
  · exact Or.inr ⟨hnew, hnone target⟩

end Discoverer

end ScrapeDiscovery

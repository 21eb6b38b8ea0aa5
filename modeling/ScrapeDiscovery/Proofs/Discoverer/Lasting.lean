import ScrapeDiscovery.Proofs.Discoverer.Reconciliation

/-!
# Several rules of one name

A list may have several rules of one name. Each valid one replaces the one before,
and wherever the plugin type changes the handler is closed and a new one takes its
place. So the handler that stands under a name in the beginning is in use in the end
exactly if all valid rules of the name in the list have its type. A valid rule lasts
if none of another type follows it under its name: what it asks of its handler for
the API server is asked of the handler that stays, while what other rules ask
concerns handlers that are closed by then.

Results:
* `Sound.handler_stays_iff`: whether a handler is still in use after installing rules.
* `Sound.exists_call_of_lasting`: what the rules that last ask for the API server.
* `Sound.mem_installAll_calls`: nothing else is asked of a handler that is in use.
-/

namespace ScrapeDiscovery

/-- All valid rules of a name in a list are of one plugin type. -/
def Uniform (rules : List Rule) (name pluginType : String) : Prop :=
  ∀ rule ∈ rules, rule.name = name → rule.isValid = true → rule.pluginType = pluginType

/-- A valid rule of a list that no valid rule of its name and of another plugin type follows. -/
def Lasting (rules : List Rule) (rule : Rule) : Prop :=
  ∃ before after, rules = before ++ rule :: after ∧ rule.isValid = true ∧
    Uniform after rule.name rule.pluginType

theorem uniform_cons {rule : Rule} {rules : List Rule} {name pluginType : String} :
    Uniform (rule :: rules) name pluginType ↔
      (rule.name = name → rule.isValid = true → rule.pluginType = pluginType) ∧
        Uniform rules name pluginType :=
  List.forall_mem_cons

theorem Lasting.mem {rules : List Rule} {rule : Rule} (h : Lasting rules rule) : rule ∈ rules := by
  obtain ⟨before, after, rfl, -⟩ := h
  exact List.mem_append_right before List.mem_cons_self

theorem Lasting.isValid {rules : List Rule} {rule : Rule} (h : Lasting rules rule) :
    rule.isValid = true := by
  obtain ⟨-, -, -, hvalid, -⟩ := h
  exact hvalid

theorem Lasting.cons {rules : List Rule} {rule : Rule} (h : Lasting rules rule) (first : Rule) :
    Lasting (first :: rules) rule := by
  obtain ⟨before, after, rfl, hrest⟩ := h
  exact ⟨first :: before, after, rfl, hrest⟩

/-- Where all valid rules of a name are of one type, each of them lasts. -/
theorem Uniform.lasting {rules : List Rule} {rule : Rule}
    (h : Uniform rules rule.name rule.pluginType) (hmem : rule ∈ rules)
    (hvalid : rule.isValid = true) : Lasting rules rule := by
  obtain ⟨before, after, rfl⟩ := List.append_of_mem hmem
  exact ⟨before, after, rfl, hvalid, fun r hr =>
    h r (List.mem_append_right before (List.mem_cons_of_mem rule hr))⟩

namespace Discoverer

/-! ## One rule -/

/-- Installing a valid rule succeeds, and an invalid one changes nothing. -/
theorem Sound.step_cases {i : Installation} (hs : i.discoverer.Sound) (rule : Rule) :
    (rule.isValid = true ∧ ∃ p d, i.discoverer.install rule = .ok (p, d) ∧
        (i.step rule).discoverer = d ∧ (i.step rule).calls = i.calls ++ apiServerCalls p) ∨
      rule.isValid ≠ true ∧ (i.step rule).discoverer = i.discoverer ∧
        (i.step rule).calls = i.calls := by
  have hok := hs.install_isOk_iff rule
  unfold Installation.step
  cases hi : i.discoverer.install rule with
  | ok result =>
    rw [hi] at hok
    exact Or.inl ⟨hok.mp rfl, result.1, result.2, rfl, rfl, rfl⟩
  | error _ =>
    rw [hi] at hok
    exact Or.inr ⟨fun hvalid => Bool.false_ne_true (hok.mpr hvalid), rfl, rfl⟩

theorem Sound.get?_step_of_ne {i : Installation} (hs : i.discoverer.Sound) {rule : Rule}
    {name : String} (hne : ¬(rule.name = name ∧ rule.isValid = true)) :
    (i.step rule).discoverer.pipelines.get? name = i.discoverer.pipelines.get? name := by
  rcases hs.step_cases rule with ⟨hvalid, p, d, hi, hd, -⟩ | ⟨-, hd, -⟩
  · rw [hd]
    exact get?_install_of_ne hi fun he => hne ⟨he.symm, hvalid⟩
  · rw [hd]

/-! ## The handler that stays -/

/-- A handler stands under one name only, and for rules of one type. -/
theorem Inherits.eq_of_handler_eq {d d' : Discoverer} (h : Inherits d d') (hs : d.Sound)
    {name k : String} {p p' : Pipeline} (hp : d.pipelines.get? name = some p)
    (hp' : d'.pipelines.get? k = some p') (he : p'.handler = p.handler) :
    k = name ∧ p'.rule.pluginType = p.rule.pluginType := by
  rcases h.origin k p' hp' with ⟨q, hq, hid, htype, -⟩ | ⟨hnew, -⟩
  · obtain rfl := hs.distinct k name q p hq hp (hid.trans he)
    obtain rfl := Option.some.inj (hq.symm.trans hp)
    exact ⟨rfl, htype.symm⟩
  · exact absurd (hs.lt_nextId hp) (Nat.not_lt_of_le (he ▸ hnew))

/-- A handler stays in use exactly if all valid rules of its name have its type. -/
theorem Sound.handler_stays_iff {i : Installation} (hs : i.discoverer.Sound) {rules : List Rule}
    {name : String} {p : Pipeline} (hp : i.discoverer.pipelines.get? name = some p) :
    (∃ k p', (rules.foldl Installation.step i).discoverer.pipelines.get? k = some p' ∧
        p'.handler = p.handler) ↔ Uniform rules name p.rule.pluginType := by
  induction rules generalizing i p with
  | nil => exact iff_of_true ⟨name, p, hp, rfl⟩ fun _ h => absurd h List.not_mem_nil
  | cons rule rules ih =>
    have hs' := hs.installStep rule
    rw [uniform_cons]
    by_cases hhit : rule.name = name ∧ rule.isValid = true
    swap
    · -- the pipeline of the name stays as it is
      rw [← hs.get?_step_of_ne hhit] at hp
      refine (ih hs' hp).trans (and_iff_right fun hname hvalid => ?_).symm
      exact absurd ⟨hname, hvalid⟩ hhit
    obtain ⟨rfl, hvalid⟩ := hhit
    rcases hs.step_cases rule with ⟨-, p₁, d, hi, hd, -⟩ | ⟨hinvalid, -⟩
    swap
    · exact absurd hvalid hinvalid
    have hp₁ : (i.step rule).discoverer.pipelines.get? rule.name = some p₁ := by
      rw [hd]
      exact install_get? hi
    have hrule : p₁.rule = rule := (install_eq_ok hi).2.1
    have hinstall := hs.handler_install hi hp
    rw [hrule] at hinstall
    by_cases htype : rule.pluginType = p.rule.pluginType
    · rw [if_pos htype] at hinstall
      rw [← hinstall, and_iff_right fun _ _ => htype, ← htype]
      have hrest := ih hs' hp₁
      rwa [hrule] at hrest
    · -- a handler that was replaced never comes back
      rw [if_neg htype] at hinstall
      refine iff_of_false ?_ fun h => htype (h.1 rfl hvalid)
      rintro ⟨k, p', hp', he⟩
      have hlt : p'.handler < i.discoverer.roster.nextId := he ▸ hs.lt_nextId hp
      rcases (hs'.installAll_inherits rules).origin k p' hp' with ⟨q, hq, hid, -⟩ | ⟨hnew, -⟩
      · have hfirst := (hs.installStep_inherits rule).eq_of_handler_eq hs hp hq (hid.trans he)
        obtain rfl : q = p₁ := by
          rw [hfirst.1, hp₁] at hq
          exact (Option.some.inj hq).symm
        exact Nat.not_le_of_lt hlt (hid ▸ hinstall)
      · have hgrows := (hs.installStep_inherits rule).nextId_le
        exact Nat.not_le_of_lt hlt (Nat.le_trans hgrows hnew)

/-- The handler that stays stands under its name. -/
theorem Sound.get?_of_uniform {i : Installation} (hs : i.discoverer.Sound) {rules : List Rule}
    {name : String} {p : Pipeline} (hp : i.discoverer.pipelines.get? name = some p)
    (hu : Uniform rules name p.rule.pluginType) :
    ∃ p', (rules.foldl Installation.step i).discoverer.pipelines.get? name = some p' ∧
      p'.handler = p.handler ∧ p'.rule.pluginType = p.rule.pluginType := by
  obtain ⟨k, p', hp', he⟩ := (hs.handler_stays_iff hp).mpr hu
  obtain ⟨rfl, htype⟩ := (hs.installAll_inherits rules).eq_of_handler_eq hs hp hp' he
  exact ⟨p', hp', he, htype⟩

/-! ## What is asked for the API server -/

theorem apiServerCalls_eq {rule : Rule} {p : Pipeline}
    (hp : ResourceFilter.compile rule = .ok p.filter) (hrule : p.rule = rule) :
    apiServerCalls p =
      if rule.IsForApiServer then [.handle p.handler .apiServer (forApiServer rule)] else [] := by
  have hkind := ResourceFilter.kind_of_compile hp
  rw [apiServerCalls, hrule]
  refine if_congr ?_ rfl rfl
  rw [Rule.IsForApiServer, hkind, Option.some_inj]

theorem Sound.calls_installAll {i : Installation} (hs : i.discoverer.Sound) (rules : List Rule) :
    i.calls ⊆ (rules.foldl Installation.step i).calls := by
  induction rules generalizing i with
  | nil => exact fun _ h => h
  | cons rule rules ih =>
    refine List.Subset.trans ?_ (ih (hs.installStep rule))
    rcases hs.step_cases rule with ⟨-, p, -, -, -, hcalls⟩ | ⟨-, -, hcalls⟩
    · rw [hcalls]
      exact List.subset_append_left _ _
    · rw [hcalls]
      exact List.Subset.refl _

/-- A rule for the API server that lasts asks the handler that stands under its name in the end. -/
theorem Sound.exists_call_of_lasting {i : Installation} (hs : i.discoverer.Sound)
    {rules : List Rule} {rule : Rule} (hlast : Lasting rules rule) (hfor : rule.IsForApiServer) :
    ∃ p, (rules.foldl Installation.step i).discoverer.pipelines.get? rule.name = some p ∧
      p.rule.pluginType = rule.pluginType ∧
        .handle p.handler .apiServer (forApiServer rule) ∈
          (rules.foldl Installation.step i).calls := by
  obtain ⟨before, after, rfl, hvalid, hu⟩ := hlast
  rw [List.foldl_append, List.foldl_cons]
  have hs₁ := hs.installAll before
  rcases hs₁.step_cases rule with ⟨-, p, d, hi, hd, hcalls⟩ | ⟨hinvalid, -⟩
  swap
  · exact absurd hvalid hinvalid
  have hs₂ := hs₁.installStep rule
  obtain ⟨hcompile, hrule, -⟩ := install_eq_ok hi
  have hp : ((before.foldl Installation.step i).step rule).discoverer.pipelines.get? rule.name =
      some p := by
    rw [hd]
    exact install_get? hi
  have hu' : Uniform after rule.name p.rule.pluginType := by rwa [hrule]
  obtain ⟨p', hp', hid, htype⟩ := hs₂.get?_of_uniform hp hu'
  refine ⟨p', hp', htype.trans (congrArg _ hrule), hs₂.calls_installAll after ?_⟩
  rw [hcalls, apiServerCalls_eq hcompile hrule, if_pos hfor, hid]
  exact List.mem_append_right _ (List.mem_singleton_self _)

/-- A rule that lasts asks the handler that stands under its name in the end for the API server. -/
def AskedBy (d : Discoverer) (rules : List Rule) (c : HandlerCall) : Prop :=
  ∃ rule p, Lasting rules rule ∧ rule.IsForApiServer ∧
    d.pipelines.get? rule.name = some p ∧ p.rule.pluginType = rule.pluginType ∧
      c = .handle p.handler .apiServer (forApiServer rule)

/-- A call of a handler that is not installed. -/
def IsIdleCall (d : Discoverer) (c : HandlerCall) : Prop :=
  ∃ id rule, c = .handle id .apiServer rule ∧ id ∉ d.installed

/-- What is asked of the handlers in use, the rules that last ask. -/
theorem Sound.mem_installAll_calls {i : Installation} (hs : i.discoverer.Sound)
    {rules : List Rule} {c : HandlerCall} (hc : c ∈ (rules.foldl Installation.step i).calls) :
    c ∈ i.calls ∨ (rules.foldl Installation.step i).discoverer.AskedBy rules c ∨
      (rules.foldl Installation.step i).discoverer.IsIdleCall c := by
  induction rules generalizing i with
  | nil => exact Or.inl hc
  | cons rule rules ih =>
    have hs' := hs.installStep rule
    rcases ih hs' hc with hfirst | ⟨r, p, hlast, hrest⟩ | hidle
    · rcases hs.step_cases rule with ⟨hvalid, p, d, hi, hd, hcalls⟩ | ⟨-, -, hcalls⟩
      swap
      · exact Or.inl (hcalls ▸ hfirst)
      rw [hcalls, List.mem_append] at hfirst
      refine hfirst.imp_right fun hown => ?_
      obtain ⟨hcompile, hrule, -⟩ := install_eq_ok hi
      rw [apiServerCalls_eq hcompile hrule] at hown
      split_ifs at hown with hfor
      · obtain rfl := List.mem_singleton.mp hown
        have hp : (i.step rule).discoverer.pipelines.get? rule.name = some p := by
          rw [hd]
          exact install_get? hi
        by_cases hu : Uniform rules rule.name p.rule.pluginType
        · obtain ⟨p', hp', hid, htype⟩ := hs'.get?_of_uniform hp hu
          rw [hrule] at hu htype
          exact Or.inl ⟨rule, p', ⟨[], rules, rfl, hvalid, hu⟩, hfor, hp', htype, by rw [hid]⟩
        · -- the handler is replaced later on
          refine Or.inr ⟨p.handler, forApiServer rule, rfl, fun hin => ?_⟩
          rcases mem_installed.mp hin with hin | hann
          · obtain ⟨k, p', hp', he⟩ := mem_handlers.mp hin
            exact hu ((hs'.handler_stays_iff hp).mp ⟨k, p', hp', he⟩)
          · have hsame := annotated_installAll (i.step rule) rules
            exact hs'.apart rule.name p hp (hann.trans hsame)
      · cases hown
    · exact Or.inr (Or.inl ⟨r, p, hlast.cons rule, hrest⟩)
    · exact Or.inr (Or.inr hidle)

end Discoverer

end ScrapeDiscovery

import ScrapeDiscovery.Proofs.Discoverer.Lasting
import ScrapeDiscovery.Proofs.Roster.Confinement

/-!
# Rules that are refused

A rule is installed in stages. Its selectors are compiled, the family and the encoder of
its plugin type are looked up and the factory of the family is made; only then a handler
is added, the pipeline that stood under its name is removed and the new one takes its
place. Each of the first stages may refuse the rule. An `Attempt` goes through the stages
one by one on a state that it changes as it goes, so that what was changed before a
refusal would be left behind. Nothing is: an attempt that is refused leaves the state
that it began with, and all attempts come to what `Discoverer.install` and
`Discoverer.handle` say.

In a list of rules an invalid one is counted and the next one goes on with the state that
the refusal left, so the pipeline that stood under its name stays, with its handler.

Results:
* `Attempt.run_install`, `Attempt.run_handle`: stage by stage, or as a whole.
* `Attempt.proceed_eq_step`: one rule of a list.
* `Sound.stays_handleAll`: the pipeline of a name that no valid rule of a list has.
* `refused_rule_changes_nothing`: all of this in every state of a run.
-/

namespace ScrapeDiscovery

/-- Stages that change the state as they go. What was changed before a refusal stays changed. -/
abbrev Attempt := EStateM DiscoveryError Discoverer

namespace Attempt

/-! ## The stages -/

/-- Adds a handler for the targets of a plugin type (`Discoverer::make_handler`). -/
def makeHandler (pluginType : String) : Attempt HandlerId := do
  let family ← ofExcept (Family.ofPluginType pluginType)
  let encoder ← ofExcept ((← get).encoders.resolve pluginType)
  let factory ← ofExcept (Family.ofName family.name)
  let h : TargetHandler := { registry := registryName pluginType, factory, encoder }
  modifyGet fun d => (d.roster.nextId, { d with roster := d.roster.add h })

/-- Puts a pipeline under the name of its rule. -/
def place (p : Pipeline) : Attempt Pipeline := do
  modify fun d => { d with pipelines := d.pipelines.insert p.rule.name p }
  return p

/-- Installs a rule and answers its pipeline (`Discoverer::install`). -/
def install (rule : Rule) : Attempt Pipeline := do
  let filter ← ofExcept (ResourceFilter.compile rule)
  match ((← get).pipelines.get? rule.name).filter (·.rule.pluginType = rule.pluginType) with
  | some old => place ⟨filter, rule, old.handler⟩
  | none =>
    let id ← makeHandler rule.pluginType
    modify (·.teardown rule.name)
    place ⟨filter, rule, id⟩

/-- Installs a single rule (`Discoverer::handle`). -/
def handle (leading : Bool) (rule : Rule) : Attempt Unit := do
  let p ← install rule
  modify Discoverer.publishCount
  modify (·.performLeading leading (Discoverer.apiServerCalls p))

/-- Installs one more rule of a list, and goes on with whatever state is left
    (`Discoverer::handle_all`). -/
def proceed (i : Discoverer.Installation) (rule : Rule) : Discoverer.Installation :=
  match (install rule).run i.discoverer with
  | .ok p d =>
    { discoverer := d, installed := i.installed + 1, failed := i.failed
      calls := i.calls ++ Discoverer.apiServerCalls p }
  | .error _ d => { i with discoverer := d, failed := i.failed + 1 }

/-! ## Nothing is left behind -/

/-- What a result comes to from a state that a refusal leaves as it is. -/
def settle {α : Type} (d : Discoverer) :
    Except DiscoveryError (α × Discoverer) → EStateM.Result DiscoveryError Discoverer α
  | .ok (a, d') => .ok a d'
  | .error e => .error e d

theorem run_ofExcept_ok {α : Type} (a : α) (d : Discoverer) :
    (ofExcept (.ok a) : Attempt α).run d = .ok a d := rfl

theorem run_makeHandler (pluginType : String) (d : Discoverer) :
    (makeHandler pluginType).run d =
      settle d ((d.makeHandler pluginType).map fun h =>
        (d.roster.nextId, { d with roster := d.roster.add h })) := by
  unfold makeHandler Discoverer.makeHandler
  cases hfamily : Family.ofPluginType pluginType with
  | error e => rfl
  | ok family =>
    -- the factory of a family that is known can always be made
    have hname : Family.ofName family.name = .ok family := by cases family <;> rfl
    simp only [EStateM.run_bind, EStateM.run_get, run_ofExcept_ok]
    cases hencoder : d.encoders.resolve pluginType with
    | error e => rfl
    | ok encoder =>
      simp only [run_ofExcept_ok, hname]
      rfl

theorem run_install (rule : Rule) (d : Discoverer) :
    (install rule).run d = settle d (d.install rule) := by
  unfold install Discoverer.install
  cases hcompile : ResourceFilter.compile rule with
  | error e => rfl
  | ok filter =>
    simp only [EStateM.run_bind, EStateM.run_get, run_ofExcept_ok]
    cases hold : (d.pipelines.get? rule.name).filter (·.rule.pluginType = rule.pluginType) with
    | some old => rfl
    | none =>
      simp only [EStateM.run_bind, run_makeHandler]
      cases hmake : d.makeHandler rule.pluginType with
      | error e => rfl
      | ok h => rfl

theorem run_handle (leading : Bool) (rule : Rule) (d : Discoverer) :
    (handle leading rule).run d = settle d ((d.handle leading rule).map fun d' => ((), d')) := by
  unfold handle Discoverer.handle
  rw [EStateM.run_bind, run_install]
  cases hi : d.install rule with
  | error e => rfl
  | ok result => rfl

/-- A rule of a list is installed or refused as a whole. -/
theorem proceed_eq_step : proceed = Discoverer.Installation.step := by
  funext i rule
  unfold proceed Discoverer.Installation.step
  rw [run_install]
  cases hi : i.discoverer.install rule with
  | error e => rfl
  | ok result => rfl

theorem settle_eq_error_iff {α : Type} {d d' : Discoverer} {e : DiscoveryError}
    {x : Except DiscoveryError (α × Discoverer)} :
    settle d x = .error e d' ↔ x = .error e ∧ d' = d := by
  cases x with
  | error e' =>
    simp only [settle, EStateM.Result.error.injEq, Except.error.injEq]
    exact and_congr_right fun _ => eq_comm
  | ok result => simp [settle]

theorem run_handle_eq_error_iff {leading : Bool} {rule : Rule} {d d' : Discoverer}
    {e : DiscoveryError} :
    (handle leading rule).run d = .error e d' ↔ d.handle leading rule = .error e ∧ d' = d := by
  rw [run_handle, settle_eq_error_iff]
  cases d.handle leading rule <;> simp [Except.map]

theorem run_handle_eq_ok_iff {leading : Bool} {rule : Rule} {d d' : Discoverer} :
    (handle leading rule).run d = .ok () d' ↔ d.handle leading rule = .ok d' := by
  rw [run_handle]
  cases d.handle leading rule <;> simp [Except.map, settle]

end Attempt

namespace Discoverer

theorem Sound.proceedAll {i : Installation} (hs : i.discoverer.Sound) (rules : List Rule) :
    (rules.foldl Attempt.proceed i).discoverer.Sound := by
  rw [Attempt.proceed_eq_step]
  exact hs.installAll rules

theorem Sound.handle_isOk_iff {d : Discoverer} (hs : d.Sound) (leading : Bool) (rule : Rule) :
    (d.handle leading rule).isOk = true ↔ rule.isValid = true := by
  rw [← hs.install_isOk_iff]
  unfold Discoverer.handle
  cases d.install rule <;> exact Iff.rfl

/-- An invalid rule of a list is counted, and changes nothing else. -/
theorem Sound.proceed_of_invalid {i : Installation} (hs : i.discoverer.Sound) {rule : Rule}
    (hinvalid : rule.isValid = false) :
    Attempt.proceed i rule = { i with failed := i.failed + 1 } := by
  rw [Attempt.proceed_eq_step, Installation.step]
  cases hi : i.discoverer.install rule with
  | error e => rfl
  | ok result =>
    have hvalid := (hs.install_isOk_iff rule).mp (by rw [hi]; rfl)
    exact absurd (hinvalid.symm.trans hvalid) Bool.false_ne_true

/-! ## The pipeline that stays -/

/-- A pipeline still stands under its name, with the same handler. -/
structure Stays (d d' : Discoverer) (name : String) (p : Pipeline) : Prop where
  installed : d'.pipelines.get? name = some p
  handler : d'.roster.handler? p.handler = d.roster.handler? p.handler

variable {d d' : Discoverer} {name : String} {p : Pipeline}

theorem Stays.trans {d'' : Discoverer} (h : Stays d d' name p) (h' : Stays d' d'' name p) :
    Stays d d'' name p :=
  ⟨h'.installed, h'.handler.trans h.handler⟩

/-- The targets of a handler that is the same have the same owner. -/
theorem Stays.owner?_iff (h : Stays d d' name p) (hs : d.Sound) (hs' : d'.Sound)
    (registry target : String) :
    d'.roster.owner? registry target = some p.handler ↔
      d.roster.owner? registry target = some p.handler := by
  rw [hs'.consistent, hs.consistent]
  simp only [Roster.registryOf?, Roster.holds, Roster.entries, h.handler]

theorem Sound.stays_teardown (hs : d.Sound) (hp : d.pipelines.get? name = some p) {k : String}
    (hk : name ≠ k) : Stays d (d.teardown k) name p := by
  cases hold : d.pipelines.get? k with
  | none =>
    rw [teardown_of_get?_eq_none hold]
    exact ⟨hp, rfl⟩
  | some old =>
    have hne : p.handler ≠ old.handler := fun he => hk (hs.distinct name k p old hp hold he)
    rw [teardown_of_get? hold]
    exact ⟨(KeyMap.get?_erase_of_ne hk).trans hp,
      (Roster.handler?_close hs.consistent old.handler p.handler).trans (if_neg hne)⟩

theorem Sound.stays_kept (hs : d.Sound) (hp : d.pipelines.get? name = some p)
    {rules : List Rule} (hin : name ∈ rules.map (·.name)) : Stays d (d.kept rules) name p := by
  have hall : ∀ names : List String, name ∉ names → ∀ d : Discoverer, d.Sound →
      d.pipelines.get? name = some p → Stays d (names.foldl Discoverer.teardown d) name p := by
    intro names
    induction names with
    | nil => exact fun _ d _ hp => ⟨hp, rfl⟩
    | cons k names ih =>
      intro hnot d hs hp
      rw [List.mem_cons, not_or] at hnot
      have hfirst := hs.stays_teardown hp hnot.1
      exact hfirst.trans (ih hnot.2 _ (hs.teardown k) hfirst.installed)
  exact hall _ (fun hmissing => (mem_missing.mp hmissing).2 hin) d hs hp

theorem Sound.stays_recreate (hs : d.Sound) (hp : d.pipelines.get? name = some p) {rule : Rule}
    (hne : name ≠ rule.name) (filter : ResourceFilter) {h : TargetHandler}
    (hempty : h.entries = ∅) : Stays d (d.recreate rule filter h).2 name p := by
  have hadd := Roster.handler?_add_of_lt (hs.lt_nextId hp) h
  cases hold : d.pipelines.get? rule.name with
  | none =>
    simp only [Discoverer.recreate, Discoverer.teardown, hold]
    exact ⟨(KeyMap.get?_insert_of_ne hne).trans hp, hadd⟩
  | some old =>
    have hother : p.handler ≠ old.handler := fun he =>
      hne (hs.distinct name rule.name p old hp hold he)
    simp only [Discoverer.recreate, Discoverer.teardown, hold]
    refine ⟨(KeyMap.get?_insert_of_ne hne).trans ((KeyMap.get?_erase_of_ne hne).trans hp), ?_⟩
    exact (Roster.handler?_close (hs.consistent.add hempty) old.handler p.handler).trans
      ((if_neg hother).trans hadd)

/-- Installing a rule leaves the pipelines of other names. -/
theorem Sound.stays_install (hs : d.Sound) (hp : d.pipelines.get? name = some p) {rule : Rule}
    {q : Pipeline} (hi : d.install rule = .ok (q, d')) (hne : name ≠ rule.name) :
    Stays d d' name p := by
  obtain ⟨-, -, ⟨old, -, -, -, rfl⟩ | ⟨h, hm, hrec⟩⟩ := install_eq_ok hi
  · exact ⟨(KeyMap.get?_insert_of_ne hne).trans hp, rfl⟩
  · obtain ⟨-, -, -, -, hempty, -⟩ := makeHandler_eq_ok hm
    have hstays := hs.stays_recreate hp hne q.filter hempty
    rwa [hrec] at hstays

/-- The pipeline of a name that no valid rule of a list has. -/
theorem Sound.stays_installAll {i : Installation} (hs : i.discoverer.Sound)
    (hp : i.discoverer.pipelines.get? name = some p) {rules : List Rule}
    (hinvalid : ∀ rule ∈ rules, rule.name = name → rule.isValid = false) :
    Stays i.discoverer (rules.foldl Installation.step i).discoverer name p := by
  induction rules generalizing i with
  | nil => exact ⟨hp, rfl⟩
  | cons rule rules ih =>
    rw [List.forall_mem_cons] at hinvalid
    have hstep : Stays i.discoverer (i.step rule).discoverer name p := by
      rcases hs.step_cases rule with ⟨hvalid, q, d, hi, hd, -⟩ | ⟨-, hd, -⟩
      · rw [hd]
        refine hs.stays_install hp hi ?_
        rintro rfl
        exact Bool.false_ne_true ((hinvalid.1 rfl).symm.trans hvalid)
      · rw [hd]
        exact ⟨hp, rfl⟩
    exact hstep.trans (ih (hs.installStep rule) hstep.installed hinvalid.2)

/-- What other handlers are asked for changes nothing about a pipeline. -/
theorem Sound.stays_performAll (hs : d.Sound) (hp : d.pipelines.get? name = some p)
    {calls : List HandlerCall}
    (hother : ∀ c ∈ calls, ∃ id resource rule, c = .handle id resource rule ∧ id ≠ p.handler) :
    Stays d (d.performAll calls) name p := by
  induction calls generalizing d with
  | nil => exact ⟨hp, rfl⟩
  | cons c calls ih =>
    rw [List.forall_mem_cons] at hother
    obtain ⟨⟨id, resource, rule, rfl, hne⟩, hrest⟩ := hother
    have hfirst : Stays d (d.perform (.handle id resource rule)) name p :=
      ⟨hp, Roster.handler?_handle_of_ne hs.consistent (Ne.symm hne) resource (some rule) false⟩
    exact hfirst.trans (ih (hs.perform _) hfirst.installed hrest)

/-- Only valid rules ask their handlers for the API server. -/
theorem Sound.ne_of_mem_installation_calls (hs : d.Sound) {rules : List Rule}
    (hp : (d.installation rules).discoverer.pipelines.get? name = some p)
    (hinvalid : ∀ rule ∈ rules, rule.name = name → rule.isValid = false) {c : HandlerCall}
    (hc : c ∈ (d.installation rules).calls) :
    ∃ id resource rule, c = .handle id resource rule ∧ id ≠ p.handler := by
  have hs' := hs.installation rules
  rcases Sound.mem_installAll_calls (i := { discoverer := d.kept rules }) (hs.kept rules) hc with
    hnone | ⟨rule, q, hlast, -, hq, -, rfl⟩ | ⟨id, rule, rfl, hidle⟩
  · exact absurd hnone List.not_mem_nil
  · refine ⟨q.handler, .apiServer, forApiServer rule, rfl, fun he => ?_⟩
    have hname : rule.name = name := hs'.distinct rule.name name q p hq hp he
    exact Bool.false_ne_true ((hinvalid rule hlast.mem hname).symm.trans hlast.isValid)
  · refine ⟨id, .apiServer, rule, rfl, ?_⟩
    rintro rfl
    exact hidle (mem_installed.mpr (Or.inl (mem_handlers.mpr ⟨name, p, hp, rfl⟩)))

/-- Where all rules of a name in a list are invalid, the pipeline of the name stays. -/
theorem Sound.stays_handleAll (hs : d.Sound) (hp : d.pipelines.get? name = some p)
    {rules : List Rule} (hin : name ∈ rules.map (·.name))
    (hinvalid : ∀ rule ∈ rules, rule.name = name → rule.isValid = false) (leading : Bool) :
    Stays d (d.handleAll leading rules).2 name p := by
  have hkept := hs.stays_kept hp hin
  have hinstalled : Stays (d.kept rules) (d.installation rules).discoverer name p :=
    Sound.stays_installAll (i := { discoverer := d.kept rules }) (hs.kept rules) hkept.installed
      hinvalid
  have hs' := (hs.installation rules).publishCount
  have hasked : Stays (d.installation rules).discoverer
      ((d.installation rules).discoverer.publishCount.performLeading leading
        (d.installation rules).calls) name p := by
    unfold Discoverer.performLeading
    split
    · have hcalls := hs'.stays_performAll hinstalled.installed fun c hc =>
        hs.ne_of_mem_installation_calls hinstalled.installed hinvalid hc
      exact ⟨hcalls.installed, hcalls.handler⟩
    · exact ⟨hinstalled.installed, rfl⟩
  -- the report at the end is about no pipeline
  exact (hkept.trans hinstalled).trans ⟨hasked.installed, hasked.handler⟩

/-! ## Every run -/

/-- In every state of a run, installing a rule is refused exactly if the rule is invalid, whatever
    stands under its name, and then it leaves the state that it began with as a whole: pipelines,
    handlers and their targets, registries, providers, the number of rules made known, and what
    was told and asked of the catalog. In a list of rules an invalid rule is counted and changes
    nothing else at its turn, and the pipeline of a name that only invalid rules of the list have
    stays there, with the same handler, which owns what it owned. -/
theorem refused_rule_changes_nothing (settings : Settings) (nodeName : String)
    (ops : List Operation) (leading : Bool) :
    let d := (start settings nodeName).run ops
    (∀ rule, (∃ e d', (Attempt.handle leading rule).run d = .error e d') ↔
      rule.isValid = false) ∧
    (∀ rule e d', (Attempt.handle leading rule).run d = .error e d' →
      d.handle leading rule = .error e ∧ d' = d) ∧
    (∀ rule d', (Attempt.handle leading rule).run d = .ok () d' ↔
      d.handle leading rule = .ok d') ∧
    ∀ rules : List Rule,
      rules.foldl Attempt.proceed { discoverer := d.kept rules } = d.installation rules ∧
      (∀ before rule after, rules = before ++ rule :: after → rule.isValid = false →
        let i := before.foldl Attempt.proceed { discoverer := d.kept rules }
        Attempt.proceed i rule = { i with failed := i.failed + 1 }) ∧
      ∀ name p, d.pipelines.get? name = some p → (∃ rule ∈ rules, rule.name = name) →
        (∀ rule ∈ rules, rule.name = name → rule.isValid = false) →
        let d' := (d.handleAll leading rules).2
        d'.pipelines.get? name = some p ∧
        d'.roster.handler? p.handler = d.roster.handler? p.handler ∧
        ∀ registry target, d'.roster.owner? registry target = some p.handler ↔
          d.roster.owner? registry target = some p.handler := by
  intro d
  have hs : d.Sound := sound_run settings nodeName ops
  refine ⟨fun rule => ?_, fun rule e d' hrefused => Attempt.run_handle_eq_error_iff.mp hrefused,
    fun rule d' => Attempt.run_handle_eq_ok_iff, fun rules => ⟨?_, ?_, ?_⟩⟩
  · rw [← Bool.not_eq_true, ← hs.handle_isOk_iff leading]
    simp only [Attempt.run_handle_eq_error_iff]
    cases d.handle leading rule <;> simp [Except.isOk, Except.toBool]
  · rw [Attempt.proceed_eq_step]
    rfl
  · intro before rule after _ hinvalid
    have hbefore := Sound.proceedAll (i := { discoverer := d.kept rules }) (hs.kept rules) before
    exact hbefore.proceed_of_invalid hinvalid
  · intro name p hp hin hinvalid
    have hstays := hs.stays_handleAll hp (List.mem_map.mpr hin) hinvalid leading
    exact ⟨hstays.installed, hstays.handler, hstays.owner?_iff hs (hs.handleAll leading rules)⟩

end Discoverer

end ScrapeDiscovery

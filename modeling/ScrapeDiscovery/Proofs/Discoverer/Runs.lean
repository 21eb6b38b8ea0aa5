import ScrapeDiscovery.Discoverer.Install
import ScrapeDiscovery.Proofs.Roster.Calls

/-!
# Runs of a discoverer

An `Operation` is something that a discoverer is asked to do, and a run is a
list of them, carried out one after the other from `start`. Leadership may
change between any two operations, so every operation that depends on it brings
its own. `Sound` is what every run keeps.

Results:
* `sound_run`: every state of a run is sound.
* `install_eq_ok`: what installing a rule comes to.
* `Sound.install`, `Sound.performAll`: the two ways in which a state changes.
* `performAll_eq`, `Sound.performAll_keeps`: what calls leave as it was.
-/

namespace ScrapeDiscovery

namespace Discoverer

/-! ## Operations -/

/-- What a discoverer is asked to do, and whether the agent leads then. -/
inductive Operation where
  | handleAll (leading : Bool) (rules : List Rule)
  | handle (leading : Bool) (rule : Rule)
  | delete (name : String)
  | discover (leading : Bool) (resource : Resource)
  | deleteResource (resource : Resource)
  | deleteClusterScoped (resources : List Resource)
  | setAnnotationPolicy (excludes : List Selectors) (disabled : Bool)
  | refreshApiServer (leading : Bool)
  | deleteAll

/-- The state after an operation. A rule that is refused changes nothing. -/
def step (d : Discoverer) : Operation → Discoverer
  | .handleAll leading rules => (d.handleAll leading rules).2
  | .handle leading rule => ((d.handle leading rule).toOption).getD d
  | .delete name => d.delete name
  | .discover leading resource => d.discover leading resource
  | .deleteResource resource => d.deleteResource resource
  | .deleteClusterScoped resources => d.deleteClusterScoped resources
  | .setAnnotationPolicy excludes disabled => d.setAnnotationPolicy excludes disabled
  | .refreshApiServer leading => d.refreshApiServer leading
  | .deleteAll => d.deleteAll

/-- The state after operations, carried out one after the other. -/
def run (d : Discoverer) (ops : List Operation) : Discoverer := ops.foldl step d

/-- The handlers of the installed rules and the one of the targets that ask for themselves. -/
def installed (d : Discoverer) : List HandlerId := d.handlers ++ [d.annotated]

theorem mem_handlers {d : Discoverer} {id : HandlerId} :
    id ∈ d.handlers ↔ ∃ k p, d.pipelines.get? k = some p ∧ p.handler = id := by
  simp only [handlers, List.mem_map, KeyMap.mem_values_iff]
  constructor
  · rintro ⟨p, ⟨k, hp⟩, rfl⟩
    exact ⟨k, p, hp, rfl⟩
  · rintro ⟨k, p, hp, rfl⟩
    exact ⟨p, ⟨k, hp⟩, rfl⟩

theorem mem_installed {d : Discoverer} {id : HandlerId} :
    id ∈ d.installed ↔ id ∈ d.handlers ∨ id = d.annotated := by
  simp [installed]

/-- A handler stays installed as long as a pipeline keeps it. -/
theorem mem_installed_of_kept {d d' : Discoverer} {id : HandlerId}
    (hann : d'.annotated = d.annotated)
    (hkept : ∀ k p, d.pipelines.get? k = some p → p.handler = id →
      ∃ k' p', d'.pipelines.get? k' = some p' ∧ p'.handler = id)
    (hid : id ∈ d.installed) : id ∈ d'.installed := by
  rcases mem_installed.mp hid with hid | hid
  · obtain ⟨k, p, hp, he⟩ := mem_handlers.mp hid
    exact mem_installed.mpr (Or.inl (mem_handlers.mpr (hkept k p hp he)))
  · exact mem_installed.mpr (Or.inr (hid.trans hann.symm))

/-! ## The invariant -/

/-- The handler of the targets that ask for themselves, as it is at first. -/
def annotationHandler (annotationPrefix nodeName : String) : TargetHandler where
  registry := registryName annotatedType
  factory := .prometheus
  encoder := .prometheus (.ofPrefix annotationPrefix) nodeName
  useAnnotations := true

/-- What every state of a run satisfies. -/
structure Sound (d : Discoverer) : Prop where
  consistent : d.roster.Consistent
  /-- A pipeline is installed under the name of its rule. -/
  named : ∀ k p, d.pipelines.get? k = some p → p.rule.name = k
  /-- The filter of a pipeline has been compiled from its rule. -/
  compiled : ∀ k p, d.pipelines.get? k = some p → ResourceFilter.compile p.rule = .ok p.filter
  /-- The handler of a pipeline is open and was made for the plugin type of its rule. -/
  made : ∀ k p, d.pipelines.get? k = some p →
    ∃ h, d.roster.handler? p.handler = some h ∧ d.makeHandler p.rule.pluginType = .ok h.blank
  /-- The encoders are the standard ones, and targets that ask for themselves are encoded like
      those of prometheus rules. -/
  setup : ∃ annotationPrefix nodeName, d.encoders = .standard annotationPrefix nodeName ∧
    (d.roster.handler? d.annotated).map (·.blank) =
      some (annotationHandler annotationPrefix nodeName)
  /-- No two pipelines share a handler. -/
  distinct : ∀ k k' p p', d.pipelines.get? k = some p → d.pipelines.get? k' = some p' →
    p.handler = p'.handler → k = k'
  /-- No rule uses the handler of the targets that ask for themselves. -/
  apart : ∀ k p, d.pipelines.get? k = some p → p.handler ≠ d.annotated
  /-- A handler that is not installed is closed and holds nothing. -/
  idle : ∀ id h, d.roster.handler? id = some h → id ∉ d.installed →
    h.entries = ∅ ∧ h.closed = true

theorem ofPluginType_eq_prometheus {pluginType : String}
    (h : Family.ofPluginType pluginType = .ok .prometheus) : pluginType = "prometheus" := by
  unfold Family.ofPluginType at h
  split_ifs at h with hp
  · exact hp
  · cases h

theorem makeHandler_eq_ok {d : Discoverer} {pluginType : String} {h : TargetHandler}
    (hm : d.makeHandler pluginType = .ok h) :
    h.registry = registryName pluginType ∧ Family.ofPluginType pluginType = .ok h.factory ∧
      d.encoders.resolve pluginType = .ok h.encoder ∧ h.useAnnotations = false ∧
        h.entries = ∅ ∧ h.closed = false := by
  simp only [makeHandler, bind_eq_ok_iff] at hm
  obtain ⟨factory, hfactory, encoder, hencoder, hm⟩ := hm
  cases hm
  exact ⟨rfl, hfactory, hencoder, rfl, rfl, rfl⟩

theorem sound_start (settings : Settings) (nodeName : String) :
    (start settings nodeName).Sound := by
  have hnew : ∀ id h, (start settings nodeName).roster.handler? id = some h → id = 0 := by
    intro id h hid
    by_contra hne
    have hnone : (start settings nodeName).roster.handler? id = none :=
      (Roster.handler?_add _ _ id).trans (if_neg hne)
    rw [hnone] at hid
    cases hid
  have hno : ∀ k p, (start settings nodeName).pipelines.get? k ≠ some p := fun _ _ => nofun
  exact
    { consistent := by
        refine Roster.Consistent.add ?_ rfl
        intro registry target id
        constructor
        · nofun
        · rintro ⟨hr, -⟩
          cases hr
      named := fun k p hp => absurd hp (hno k p)
      compiled := fun k p hp => absurd hp (hno k p)
      made := fun k p hp => absurd hp (hno k p)
      setup := ⟨settings.effectivePrefix, nodeName, rfl,
        congrArg (Option.map _) (Roster.handler?_add_self _ _)⟩
      distinct := fun k _ p _ hp => absurd hp (hno k p)
      apart := fun k p hp => absurd hp (hno k p)
      idle := fun id h hid hnot =>
        absurd (mem_installed.mpr (Or.inr (hnew id h hid))) hnot }

/-! ## Calls -/

/-- What keeps the roster keeps a state sound. -/
theorem Sound.of_keeps {d : Discoverer} (hs : d.Sound) {r : Roster} (hk : d.roster.Keeps r) :
    ({ d with roster := r } : Discoverer).Sound := by
  refine ⟨hk.consistent, hs.named, hs.compiled, ?_, ?_, hs.distinct, hs.apart, ?_⟩
  · intro k p hp
    obtain ⟨h, hid, hm⟩ := hs.made k p hp
    have hb := hk.blank p.handler
    rw [hid, Option.map_some, Option.map_eq_some_iff] at hb
    obtain ⟨h', hid', hb⟩ := hb
    exact ⟨h', hid', hb ▸ hm⟩
  · obtain ⟨annotationPrefix, nodeName, hencoders, hb⟩ := hs.setup
    exact ⟨annotationPrefix, nodeName, hencoders, (hk.blank d.annotated).trans hb⟩
  · intro id h hid hnot
    have hb := hk.blank id
    rw [show r.handler? id = some h from hid, Option.map_some, eq_comm,
      Option.map_eq_some_iff] at hb
    obtain ⟨h', hid', -⟩ := hb
    obtain ⟨hempty, hclosed⟩ := hs.idle id h' hid' hnot
    have hsame := (hk.closed id h' hid' hclosed hempty).symm.trans hid
    cases hsame
    exact ⟨hempty, hclosed⟩

/-- A call changes the roster and nothing else. -/
theorem perform_eq (d : Discoverer) (c : HandlerCall) :
    d.perform c = { d with roster := (d.perform c).roster } := by
  cases c with
  | delete id target => rfl
  | handle id resource rule => rfl
  | annotate resource =>
    show d.annotate resource = { d with roster := (d.annotate resource).roster }
    unfold annotate
    split
    · rfl
    · split <;> rfl

theorem performAll_eq (d : Discoverer) (calls : List HandlerCall) :
    d.performAll calls = { d with roster := (d.performAll calls).roster } := by
  induction calls generalizing d with
  | nil => rfl
  | cons c cs ih =>
    have hone : ∀ r : Roster,
        ({ d.perform c with roster := r } : Discoverer) = { d with roster := r } := by
      intro r
      rw [perform_eq d c]
    exact (ih (d.perform c)).trans (hone _)

theorem Sound.perform_keeps {d : Discoverer} (hs : d.Sound) (c : HandlerCall) :
    d.roster.Keeps (d.perform c).roster := by
  cases c with
  | delete id target => exact Roster.delete_keeps hs.consistent id target
  | handle id resource rule =>
    exact Roster.handle_keeps hs.consistent id resource (some rule) false
  | annotate resource =>
    simp only [Discoverer.perform, annotate]
    split
    · exact .refl hs.consistent
    split
    · exact Roster.handle_keeps hs.consistent _ resource none _
    · exact Roster.delete_keeps hs.consistent _ _

theorem Sound.perform {d : Discoverer} (hs : d.Sound) (c : HandlerCall) :
    (d.perform c).Sound := by
  rw [perform_eq]
  exact hs.of_keeps (hs.perform_keeps c)

theorem Sound.performAll_keeps {d : Discoverer} (hs : d.Sound) (calls : List HandlerCall) :
    d.roster.Keeps (d.performAll calls).roster := by
  induction calls generalizing d with
  | nil => exact .refl hs.consistent
  | cons c cs ih => exact (hs.perform_keeps c).trans (ih (hs.perform c))

theorem Sound.performAll {d : Discoverer} (hs : d.Sound) (calls : List HandlerCall) :
    (d.performAll calls).Sound := by
  rw [performAll_eq]
  exact hs.of_keeps (hs.performAll_keeps calls)

theorem Sound.performLeading {d : Discoverer} (hs : d.Sound) (leading : Bool)
    (calls : List HandlerCall) : (d.performLeading leading calls).Sound := by
  unfold Discoverer.performLeading
  split
  · exact hs.performAll calls
  · exact hs

theorem Sound.dismiss {d : Discoverer} (hs : d.Sound) (id : HandlerId) (p : String → Bool) :
    ({ d with roster := d.roster.dismiss id p } : Discoverer).Sound :=
  hs.of_keeps ((Roster.dismiss_retreat d.roster id p).keeps hs.consistent)

theorem Sound.report {d : Discoverer} (hs : d.Sound) (e : LogEvent) :
    ({ d with roster := d.roster.report e } : Discoverer).Sound :=
  hs.of_keeps ((Roster.Advance.note _ d.roster.mishaps).keeps hs.consistent)

theorem Sound.publishCount {d : Discoverer} (hs : d.Sound) : d.publishCount.Sound :=
  ⟨hs.consistent, hs.named, hs.compiled, hs.made, hs.setup, hs.distinct, hs.apart, hs.idle⟩

/-! ## Pipelines -/

/-- Soundness depends on the roster through its views only. -/
theorem Sound.of_views {d : Discoverer} (hs : d.Sound) {r : Roster} (hr : r.Consistent)
    (hv : ∀ id, r.handler? id = d.roster.handler? id) :
    ({ d with roster := r } : Discoverer).Sound := by
  refine ⟨hr, hs.named, hs.compiled, ?_, ?_, hs.distinct, hs.apart, ?_⟩
  · intro k p hp
    rw [show ({ d with roster := r } : Discoverer).roster = r from rfl, hv]
    exact hs.made k p hp
  · rw [show ({ d with roster := r } : Discoverer).roster = r from rfl, hv]
    exact hs.setup
  · intro id h hid
    rw [show ({ d with roster := r } : Discoverer).roster = r from rfl, hv] at hid
    exact hs.idle id h hid

theorem teardown_of_get?_eq_none {d : Discoverer} {name : String}
    (hn : d.pipelines.get? name = none) : d.teardown name = d := by
  rw [teardown, hn]

theorem teardown_of_get? {d : Discoverer} {name : String} {p : Pipeline}
    (hp : d.pipelines.get? name = some p) :
    d.teardown name =
      { d with pipelines := d.pipelines.erase name, roster := d.roster.close p.handler } := by
  rw [teardown, hp]

theorem Sound.teardown {d : Discoverer} (hs : d.Sound) (name : String) :
    (d.teardown name).Sound := by
  cases hp : d.pipelines.get? name with
  | none =>
    rw [teardown_of_get?_eq_none hp]
    exact hs
  | some p =>
    rw [teardown_of_get? hp]
    have hcl := Roster.handler?_close hs.consistent p.handler
    have hmem : ∀ {k q}, (d.pipelines.erase name).get? k = some q →
        k ≠ name ∧ d.pipelines.get? k = some q := KeyMap.get?_erase_eq_some
    exact
      { consistent := hs.consistent.close p.handler
        named := fun k q hq => hs.named k q (hmem hq).2
        compiled := fun k q hq => hs.compiled k q (hmem hq).2
        made := by
          intro k q hq
          obtain ⟨hk, hq⟩ := hmem hq
          have hne : q.handler ≠ p.handler := fun he => hk (hs.distinct k name q p hq hp he)
          obtain ⟨h, hid, hm⟩ := hs.made k q hq
          exact ⟨h, (hcl q.handler).trans ((if_neg hne).trans hid), hm⟩
        setup := by
          obtain ⟨annotationPrefix, nodeName, hencoders, hb⟩ := hs.setup
          have hne : d.annotated ≠ p.handler := (hs.apart name p hp).symm
          exact ⟨annotationPrefix, nodeName, hencoders,
            (congrArg _ ((hcl d.annotated).trans (if_neg hne))).trans hb⟩
        distinct := fun k k' q q' hq hq' => hs.distinct k k' q q' (hmem hq).2 (hmem hq').2
        apart := fun k q hq => hs.apart k q (hmem hq).2
        idle := by
          intro id h hid hnot
          change (d.roster.close p.handler).handler? id = some h at hid
          rw [hcl] at hid
          split_ifs at hid with he
          · obtain ⟨g, -, rfl⟩ := Option.map_eq_some_iff.mp hid
            exact ⟨rfl, rfl⟩
          · refine hs.idle id h hid fun hin => hnot (mem_installed_of_kept (d := d) rfl ?_ hin)
            rintro k q hq rfl
            have hk : k ≠ name := by
              rintro rfl
              rw [hp] at hq
              cases hq
              exact he rfl
            exact ⟨k, q, (KeyMap.get?_erase_of_ne hk).trans hq, rfl⟩ }

/-- A pipeline with a new handler under a name that is free. -/
theorem Sound.insert {d : Discoverer} (hs : d.Sound) {rule : Rule} {filter : ResourceFilter}
    {h : TargetHandler} (hfree : d.pipelines.get? rule.name = none)
    (hf : ResourceFilter.compile rule = .ok filter) (hm : d.makeHandler rule.pluginType = .ok h) :
    ({ d with
      roster := d.roster.add h
      pipelines := d.pipelines.insert rule.name ⟨filter, rule, d.roster.nextId⟩ } :
        Discoverer).Sound := by
  obtain ⟨-, -, -, -, hempty, -⟩ := makeHandler_eq_ok hm
  have hadd := Roster.handler?_add d.roster h
  have hold : ∀ {id g}, d.roster.handler? id = some g → id ≠ d.roster.nextId := fun hid =>
    Nat.ne_of_lt (Roster.lt_nextId_of_handler? hid)
  have hmem : ∀ {k q}, (d.pipelines.insert rule.name ⟨filter, rule, d.roster.nextId⟩).get? k =
      some q → k = rule.name ∧ q = ⟨filter, rule, d.roster.nextId⟩ ∨
        k ≠ rule.name ∧ d.pipelines.get? k = some q := KeyMap.get?_insert_eq_some
  have hused : ∀ {k q}, d.pipelines.get? k = some q → q.handler ≠ d.roster.nextId := by
    intro k q hq
    obtain ⟨g, hg, -⟩ := hs.made k q hq
    exact hold hg
  obtain ⟨annotationPrefix, nodeName, hencoders, hb⟩ := hs.setup
  obtain ⟨g, hg, -⟩ := Option.map_eq_some_iff.mp hb
  exact
    { consistent := hs.consistent.add hempty
      named := by
        intro k q hq
        rcases hmem hq with ⟨rfl, rfl⟩ | ⟨-, hq⟩
        · rfl
        · exact hs.named k q hq
      compiled := by
        intro k q hq
        rcases hmem hq with ⟨rfl, rfl⟩ | ⟨-, hq⟩
        · exact hf
        · exact hs.compiled k q hq
      made := by
        intro k q hq
        rcases hmem hq with ⟨rfl, rfl⟩ | ⟨-, hq⟩
        · refine ⟨h, Roster.handler?_add_self d.roster h, hm.trans (congrArg _ ?_)⟩
          rw [TargetHandler.blank, ← hempty]
        · obtain ⟨g, hg, hmg⟩ := hs.made k q hq
          exact ⟨g, (hadd q.handler).trans ((if_neg (hold hg)).trans hg), hmg⟩
      setup := ⟨annotationPrefix, nodeName, hencoders,
        (congrArg _ ((hadd d.annotated).trans (if_neg (hold hg)))).trans hb⟩
      distinct := by
        intro k k' q q' hq hq' he
        rcases hmem hq with ⟨rfl, rfl⟩ | ⟨-, hq⟩ <;> rcases hmem hq' with ⟨rfl, rfl⟩ | ⟨-, hq'⟩
        · rfl
        · exact absurd he.symm (hused hq')
        · exact absurd he (hused hq)
        · exact hs.distinct k k' q q' hq hq' he
      apart := by
        intro k q hq
        rcases hmem hq with ⟨rfl, rfl⟩ | ⟨-, hq⟩
        · exact (hold hg).symm
        · exact hs.apart k q hq
      idle := by
        intro id g hid hnot
        have hne : id ≠ d.roster.nextId := by
          rintro rfl
          exact hnot (mem_installed.mpr (Or.inl (mem_handlers.mpr
            ⟨rule.name, _, KeyMap.get?_insert_self _ _ _, rfl⟩)))
        refine hs.idle id g (((hadd id).trans (if_neg hne)).symm.trans hid) fun hin =>
          hnot (mem_installed_of_kept (d := d) rfl ?_ hin)
        rintro k q hq rfl
        have hk : k ≠ rule.name := by
          rintro rfl
          rw [hfree] at hq
          cases hq
        exact ⟨k, q, (KeyMap.get?_insert_of_ne hk).trans hq, rfl⟩ }

/-- A pipeline in place of one of its name and type, with the same handler. -/
theorem Sound.swap {d : Discoverer} (hs : d.Sound) {rule : Rule} {filter : ResourceFilter}
    {old : Pipeline} (hold : d.pipelines.get? rule.name = some old)
    (htype : old.rule.pluginType = rule.pluginType)
    (hf : ResourceFilter.compile rule = .ok filter) :
    ({ d with pipelines := d.pipelines.insert rule.name ⟨filter, rule, old.handler⟩ } :
      Discoverer).Sound := by
  have hmem : ∀ {k q}, (d.pipelines.insert rule.name ⟨filter, rule, old.handler⟩).get? k =
      some q → k = rule.name ∧ q = ⟨filter, rule, old.handler⟩ ∨
        k ≠ rule.name ∧ d.pipelines.get? k = some q := KeyMap.get?_insert_eq_some
  -- every pipeline stands where one with its handler stood before
  have hwas : ∀ {k q}, (d.pipelines.insert rule.name ⟨filter, rule, old.handler⟩).get? k =
      some q → ∃ q', d.pipelines.get? k = some q' ∧ q'.handler = q.handler := by
    intro k q hq
    rcases hmem hq with ⟨rfl, rfl⟩ | ⟨-, hq⟩
    · exact ⟨old, hold, rfl⟩
    · exact ⟨q, hq, rfl⟩
  exact
    { consistent := hs.consistent
      named := by
        intro k q hq
        rcases hmem hq with ⟨rfl, rfl⟩ | ⟨-, hq⟩
        · rfl
        · exact hs.named k q hq
      compiled := by
        intro k q hq
        rcases hmem hq with ⟨rfl, rfl⟩ | ⟨-, hq⟩
        · exact hf
        · exact hs.compiled k q hq
      made := by
        intro k q hq
        rcases hmem hq with ⟨rfl, rfl⟩ | ⟨-, hq⟩
        · obtain ⟨h, hid, hm⟩ := hs.made rule.name old hold
          exact ⟨h, hid, htype ▸ hm⟩
        · exact hs.made k q hq
      setup := hs.setup
      distinct := by
        intro k k' q q' hq hq' he
        obtain ⟨p, hp, hph⟩ := hwas hq
        obtain ⟨p', hp', hph'⟩ := hwas hq'
        exact hs.distinct k k' p p' hp hp' (hph.trans (he.trans hph'.symm))
      apart := by
        intro k q hq
        obtain ⟨p, hp, hph⟩ := hwas hq
        exact hph ▸ hs.apart k p hp
      idle := by
        intro id g hid hnot
        refine hs.idle id g hid fun hin => hnot (mem_installed_of_kept (d := d) rfl ?_ hin)
        rintro k q hq rfl
        by_cases hk : k = rule.name
        · subst hk
          rw [hold] at hq
          cases hq
          exact ⟨rule.name, _, KeyMap.get?_insert_self _ _ _, rfl⟩
        · exact ⟨k, q, (KeyMap.get?_insert_of_ne hk).trans hq, rfl⟩ }

/-- The views do not show whether a handler was added before another was closed. -/
theorem handler?_close_add {r : Roster} (hc : r.Consistent) {h : TargetHandler}
    (hempty : h.entries = ∅) {old : HandlerId} (hold : old ≠ r.nextId) (id : HandlerId) :
    ((r.add h).close old).handler? id = ((r.close old).add h).handler? id := by
  rw [Roster.handler?_close (hc.add hempty), Roster.handler?_add, Roster.handler?_add,
    Roster.handler?_add, Roster.handler?_close hc, Roster.nextId_close, if_neg hold]
  split_ifs with hid hnew
  · exact absurd (hid.symm.trans hnew) hold
  · rfl
  · rfl
  · rfl

theorem Sound.recreate {d : Discoverer} (hs : d.Sound) {rule : Rule} {filter : ResourceFilter}
    {h : TargetHandler} (hf : ResourceFilter.compile rule = .ok filter)
    (hm : d.makeHandler rule.pluginType = .ok h) : (d.recreate rule filter h).2.Sound := by
  obtain ⟨-, -, -, -, hempty, -⟩ := makeHandler_eq_ok hm
  cases hp : d.pipelines.get? rule.name with
  | none =>
    have hrec : (d.recreate rule filter h).2 =
        { d with
          roster := d.roster.add h
          pipelines := d.pipelines.insert rule.name ⟨filter, rule, d.roster.nextId⟩ } := by
      simp only [Discoverer.recreate, Discoverer.teardown, hp]
    rw [hrec]
    exact hs.insert hp hf hm
  | some old =>
    have hrec : (d.recreate rule filter h).2 =
        { d with
          roster := (d.roster.add h).close old.handler
          pipelines :=
            (d.pipelines.erase rule.name).insert rule.name ⟨filter, rule, d.roster.nextId⟩ } := by
      simp only [Discoverer.recreate, Discoverer.teardown, hp]
    have ht := hs.teardown rule.name
    rw [teardown_of_get? hp] at ht
    have hi := ht.insert (KeyMap.get?_erase_self _ _) hf hm
    have hne : old.handler ≠ d.roster.nextId := by
      obtain ⟨g, hg, -⟩ := hs.made rule.name old hp
      exact Nat.ne_of_lt (Roster.lt_nextId_of_handler? hg)
    simp only [Roster.nextId_close] at hi
    rw [hrec]
    exact hi.of_views ((hs.consistent.add hempty).close _)
      (handler?_close_add hs.consistent hempty hne)

/-- Installing a rule compiles it and then either takes over the handler of the pipeline of its
    name and type, or makes a handler for it. -/
theorem install_eq_ok {d d' : Discoverer} {rule : Rule} {p : Pipeline}
    (hi : d.install rule = .ok (p, d')) :
    ResourceFilter.compile rule = .ok p.filter ∧ p.rule = rule ∧
      ((∃ old, d.pipelines.get? rule.name = some old ∧
          old.rule.pluginType = rule.pluginType ∧ p.handler = old.handler ∧
          d' = { d with pipelines := d.pipelines.insert rule.name p }) ∨
        ∃ h, d.makeHandler rule.pluginType = .ok h ∧ d.recreate rule p.filter h = (p, d')) := by
  simp only [install, bind_eq_ok_iff] at hi
  obtain ⟨filter, hf, hi⟩ := hi
  split at hi
  · next old hold =>
    cases hi
    obtain ⟨hold, htype⟩ := Option.filter_eq_some_iff.mp hold
    exact ⟨hf, rfl, Or.inl ⟨old, hold, of_decide_eq_true htype, rfl, rfl⟩⟩
  · obtain ⟨h, hm, hi⟩ := bind_eq_ok_iff.mp hi
    cases hi
    exact ⟨hf, rfl, Or.inr ⟨h, hm, rfl⟩⟩

theorem Sound.install {d d' : Discoverer} (hs : d.Sound) {rule : Rule} {p : Pipeline}
    (hi : d.install rule = .ok (p, d')) : d'.Sound := by
  obtain ⟨hf, rfl, ⟨old, hold, htype, hp, rfl⟩ | ⟨h, hm, hrec⟩⟩ := install_eq_ok hi
  · have hswap := hs.swap hold htype hf
    rw [← hp] at hswap
    exact hswap
  · have hsound := hs.recreate hf hm
    rwa [hrec] at hsound

/-! ## Runs -/

theorem Sound.teardownAll {d : Discoverer} (hs : d.Sound) (names : List String) :
    (names.foldl Discoverer.teardown d).Sound := by
  induction names generalizing d with
  | nil => exact hs
  | cons name names ih => exact ih (hs.teardown name)

theorem Sound.installStep {i : Installation} (hs : i.discoverer.Sound) (rule : Rule) :
    (i.step rule).discoverer.Sound := by
  unfold Installation.step
  split
  · next p d hi => exact hs.install hi
  · exact hs

theorem Sound.installAll {i : Installation} (hs : i.discoverer.Sound) (rules : List Rule) :
    (rules.foldl Installation.step i).discoverer.Sound := by
  induction rules generalizing i with
  | nil => exact hs
  | cons rule rules ih => exact ih (hs.installStep rule)

theorem Sound.handleAll {d : Discoverer} (hs : d.Sound) (leading : Bool) (rules : List Rule) :
    (d.handleAll leading rules).2.Sound := by
  have hi := Sound.installAll (i := { discoverer := (d.missing rules).foldl Discoverer.teardown d })
    (hs.teardownAll (d.missing rules)) rules
  exact (hi.publishCount.performLeading leading _).report _

theorem Sound.handle {d d' : Discoverer} (hs : d.Sound) {leading : Bool} {rule : Rule}
    (hh : d.handle leading rule = .ok d') : d'.Sound := by
  simp only [Discoverer.handle, bind_eq_ok_iff] at hh
  obtain ⟨⟨p, d₁⟩, hi, hh⟩ := hh
  cases hh
  exact (hs.install hi).publishCount.performLeading leading _

theorem Sound.discover {d : Discoverer} (hs : d.Sound) (leading : Bool) (resource : Resource) :
    (d.discover leading resource).Sound := by
  unfold Discoverer.discover
  split
  · exact hs
  · exact hs.performAll _

theorem Sound.deleteClusterScoped {d : Discoverer} (hs : d.Sound) (resources : List Resource) :
    (d.deleteClusterScoped resources).Sound := by
  have hall : (resources.foldl Discoverer.deleteResource d).Sound := by
    induction resources generalizing d with
    | nil => exact hs
    | cons r rs ih => exact ih (hs.performAll _)
  exact hall.performAll _

theorem Sound.setAnnotationPolicy {d : Discoverer} (hs : d.Sound) (excludes : List Selectors)
    (disabled : Bool) : (d.setAnnotationPolicy excludes disabled).Sound := by
  have hp : ({ d with policy := .compile excludes disabled } : Discoverer).Sound :=
    ⟨hs.consistent, hs.named, hs.compiled, hs.made, hs.setup, hs.distinct, hs.apart, hs.idle⟩
  unfold Discoverer.setAnnotationPolicy
  split
  · exact hp.dismiss _ _
  · exact hp

theorem Sound.step {d : Discoverer} (hs : d.Sound) (op : Operation) : (d.step op).Sound := by
  cases op with
  | handleAll leading rules => exact hs.handleAll leading rules
  | handle leading rule =>
    simp only [Discoverer.step]
    cases hh : d.handle leading rule with
    | error _ => exact hs
    | ok d' => exact hs.handle hh
  | delete name => exact (hs.teardown name).publishCount
  | discover leading resource => exact hs.discover leading resource
  | deleteResource resource => exact hs.performAll _
  | deleteClusterScoped resources => exact hs.deleteClusterScoped resources
  | setAnnotationPolicy excludes disabled => exact hs.setAnnotationPolicy excludes disabled
  | refreshApiServer leading => exact hs.performLeading leading _
  | deleteAll => exact (hs.handleAll false []).dismiss _ _

theorem Sound.run {d : Discoverer} (hs : d.Sound) (ops : List Operation) : (d.run ops).Sound := by
  induction ops generalizing d with
  | nil => exact hs
  | cons op ops ih => exact ih (hs.step op)

/-- Every state of a run is sound. -/
theorem sound_run (settings : Settings) (nodeName : String) (ops : List Operation) :
    ((start settings nodeName).run ops).Sound :=
  (sound_start settings nodeName).run ops

end Discoverer

end ScrapeDiscovery

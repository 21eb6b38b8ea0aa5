import ScrapeDiscovery.Proofs.Discoverer.Applied
import ScrapeDiscovery.Proofs.Discoverer.Resting

/-!
# Making the installed rules the installed ones again

The same list of rules may be handed over more than once, and pods and services come
and go in between. Most of the time nothing is to be done then: the rules are in
effect already. But the name of a rule is its identity, and a list may have several
rules of one name. Where their plugin types differ, the handler that was in use is
closed with all its targets. Where they ask for different encodings of the API
server, each is published again in turn.

Results:
* `Applied.untouched_of_steady`, `Applied.steady_of_untouched`: when making rules that are in
  effect the installed ones again changes nothing.
* `Sound.renewed_handleAll`: lists without two rules of one name.
* `untouched_handleAll_iff`: both in every state of a run.
-/

namespace ScrapeDiscovery.Discoverer

/-- The targets with their encodings, the recorded owners and the live providers are the same, and
    nothing was asked of the catalog in between. -/
structure Untouched (d d' : Discoverer) : Prop where
  targets : d'.targets = d.targets
  owner? : ∀ registry target, d'.roster.owner? registry target = d.roster.owner? registry target
  catalog : d'.roster.catalog = d.roster.catalog
  calls : d'.roster.calls = d.roster.calls

/-- Whatever the valid rules of the name of a pipeline ask it to publish for the API server is what
    it holds, if it holds the target. -/
def Renewed (d : Discoverer) (leading : Bool) (rules : List Rule) (p : Pipeline) : Prop :=
  leading = true → ∀ rule ∈ rules, rule.name = p.rule.name → rule.isValid = true →
    rule.IsForApiServer → ∀ config config',
      d.roster.encoding p.handler Resource.apiServer.targetName = some config →
        d.encodeApiServer? p rule = some config' → config' = config

/-- Nothing happens to a pipeline when the rules of a list are made the installed ones again. -/
structure Steady (d : Discoverer) (leading : Bool) (rules : List Rule) (p : Pipeline) : Prop where
  /-- Its handler is not replaced, or has nothing to lose. -/
  uniform : Uniform rules p.rule.name p.rule.pluginType ∨
    ∀ target, d.roster.holds p.handler target = false
  renewed : d.Renewed leading rules p

theorem Renewed.aside {d d' : Discoverer} {leading : Bool} {rules : List Rule} {p : Pipeline}
    (hr : d.Renewed leading rules p) (h : Aside d d') : d'.Renewed leading rules p := by
  intro hleading rule hmem hname hvalid hfor config config' henc henc'
  rw [h.encoding] at henc
  rw [h.encodeApiServer?_eq] at henc'
  exact hr hleading rule hmem hname hvalid hfor config config' henc henc'

/-! ## Installing once more -/

theorem Applied.kept_eq {d : Discoverer} {leading : Bool} {rules : List Rule}
    (ha : d.Applied leading rules) : d.kept rules = d := by
  have hmissing : d.missing rules = [] := by
    refine List.eq_nil_iff_forall_not_mem.mpr fun name hname => ?_
    obtain ⟨⟨p, hp⟩, hnot⟩ := mem_missing.mp hname
    have hrule := ha.fixed name
    rw [if_neg hnot, rule?, hp] at hrule
    cases hrule
  rw [Discoverer.kept, hmissing]
  rfl

theorem Applied.rule?_handleAll {d : Discoverer} (hs : d.Sound) {leading : Bool}
    {rules : List Rule} (ha : d.Applied leading rules) (name : String) :
    (d.handleAll leading rules).2.rule? name = d.rule? name :=
  (hs.rule?_handleAll leading rules name).trans (ha.fixed name).symm

/-- Installing a rule in place of one of another type moves nothing if that one held nothing. -/
theorem Sound.same_install {d d' : Discoverer} (hs : d.Sound) {rule : Rule} {p : Pipeline}
    (hi : d.install rule = .ok (p, d'))
    (hmild : ∀ old, d.pipelines.get? rule.name = some old →
      rule.pluginType = old.rule.pluginType ∨
        ∀ target, d.roster.holds old.handler target = false) :
    d.roster.Same d'.roster := by
  obtain ⟨-, hrule, ⟨old, -, -, -, rfl⟩ | ⟨h, hm, hrec⟩⟩ := install_eq_ok hi
  · exact .refl _
  obtain ⟨-, -, -, -, hempty, -⟩ := makeHandler_eq_ok hm
  have hadd := Roster.same_add d.roster hempty
  obtain ⟨hp, hd⟩ := Prod.mk.inj hrec
  cases hold : d.pipelines.get? rule.name with
  | none =>
    rw [← hd]
    simp only [Discoverer.teardown, hold]
    exact hadd
  | some old =>
    have hnone : ∀ target, d.roster.holds old.handler target = false := by
      refine (hmild old hold).resolve_left fun htype => ?_
      -- the handler of a pipeline of the same type is taken over
      have hinstall := hs.handler_install hi hold
      rw [hrule, if_pos htype, ← hp] at hinstall
      exact Nat.lt_irrefl _ (hinstall ▸ hs.lt_nextId hold)
    rw [← hd]
    simp only [Discoverer.teardown, hold]
    exact hadd.trans (Roster.same_close fun target => (hadd.holds _ target).trans (hnone target))

/-- Installing rules moves nothing if wherever the type changes nothing was held. -/
theorem Sound.same_installAll {i : Installation} (hs : i.discoverer.Sound) {rules : List Rule}
    (hmild : ∀ name p, i.discoverer.pipelines.get? name = some p →
      Uniform rules name p.rule.pluginType ∨
        ∀ target, i.discoverer.roster.holds p.handler target = false) :
    i.discoverer.roster.Same (rules.foldl Installation.step i).discoverer.roster := by
  induction rules generalizing i with
  | nil => exact .refl _
  | cons rule rules ih =>
    have hstep : i.discoverer.roster.Same (i.step rule).discoverer.roster := by
      rcases hs.step_cases rule with ⟨hvalid, p, d, hi, hd, -⟩ | ⟨-, hd, -⟩
      · rw [hd]
        refine hs.same_install hi fun old hold => ?_
        exact (hmild rule.name old hold).imp_left fun hu => (uniform_cons.mp hu).1 rfl hvalid
      · rw [hd]
        exact .refl _
    refine hstep.trans (ih (hs.installStep rule) fun name p' hp' => ?_)
    rcases (hs.installStep_inherits rule).origin name p' hp' with
      ⟨p, hp, hid, htype, -⟩ | ⟨-, hnone⟩
    · rw [← htype, ← hid]
      refine (hmild name p hp).imp (fun hu => (uniform_cons.mp hu).2) fun hnone target => ?_
      rw [hstep.holds]
      exact hnone target
    · exact Or.inr fun target => congrArg Option.isSome (hnone target)

/-- Handlers for rules of one type differ in what they hold only. -/
theorem Sound.blank_eq {d d' : Discoverer} (hs : d.Sound) (hs' : d'.Sound)
    (hencoders : d'.encoders = d.encoders) {k k' : String} {p p' : Pipeline}
    (hp : d.pipelines.get? k = some p) (hp' : d'.pipelines.get? k' = some p')
    (htype : p'.rule.pluginType = p.rule.pluginType) :
    (d'.roster.handler? p'.handler).map (·.blank) =
      (d.roster.handler? p.handler).map (·.blank) := by
  obtain ⟨h, hid, hm⟩ := hs.made k p hp
  obtain ⟨h', hid', hm'⟩ := hs'.made k' p' hp'
  have hsame : d'.makeHandler p'.rule.pluginType = d.makeHandler p.rule.pluginType := by
    rw [makeHandler, makeHandler, hencoders, htype]
  rw [hid, hid', Option.map_some, Option.map_some]
  exact congrArg some (Except.ok.inj (hm'.symm.trans (hsame.trans hm)))

theorem Sound.registryOf?_eq {d d' : Discoverer} (hs : d.Sound) (hs' : d'.Sound)
    (hencoders : d'.encoders = d.encoders) {k k' : String} {p p' : Pipeline}
    (hp : d.pipelines.get? k = some p) (hp' : d'.pipelines.get? k' = some p')
    (htype : p'.rule.pluginType = p.rule.pluginType) :
    d'.roster.registryOf? p'.handler = d.roster.registryOf? p.handler := by
  have hblank := congrArg (Option.map (·.registry)) (hs.blank_eq hs' hencoders hp hp' htype)
  rw [Option.map_map, Option.map_map] at hblank
  exact hblank

theorem Sound.encodeApiServer?_eq {d d' : Discoverer} (hs : d.Sound) (hs' : d'.Sound)
    (hencoders : d'.encoders = d.encoders) {k k' : String} {p p' : Pipeline}
    (hp : d.pipelines.get? k = some p) (hp' : d'.pipelines.get? k' = some p')
    (htype : p'.rule.pluginType = p.rule.pluginType) (rule : Rule) :
    d'.encodeApiServer? p' rule = d.encodeApiServer? p rule := by
  have hblank := hs.blank_eq hs' hencoders hp hp' htype
  have hof : ∀ (d : Discoverer) (p : Pipeline), d.encodeApiServer? p rule =
      ((d.roster.handler? p.handler).map (·.blank)).bind
        (·.encode? .apiServer (some (forApiServer rule))) := fun d p => by
    rw [Option.bind_map]
    rfl
  rw [hof, hof, hblank]

/-- When a pipeline has nothing to publish for the API server. -/
theorem Sound.rests_iff_of_mem {d : Discoverer} (hs : d.Sound) {p : Pipeline}
    (hp : p ∈ d.pipelines.values) (rule : Rule) :
    d.Rests (.handle p.handler .apiServer (forApiServer rule)) ↔
      (∃ registry i, d.roster.registryOf? p.handler = some registry ∧
        d.roster.owner? registry Resource.apiServer.targetName = some i ∧ i ≠ p.handler) ∨
      d.encodeApiServer? p rule = none ∨
        d.encodeApiServer? p rule =
          d.roster.encoding p.handler Resource.apiServer.targetName := by
  obtain ⟨h, hid, hopen, hfamily⟩ := hs.ready hp
  have henc : d.encodeApiServer? p rule = h.encode? .apiServer (some (forApiServer rule)) :=
    encode?_eq (p := { p with rule := forApiServer rule }) hid .apiServer
  have hreg : d.roster.registryOf? p.handler = some h.registry :=
    Roster.registryOf?_eq_some_iff.mpr ⟨h, hid, rfl⟩
  rw [hs.rests_iff, hid, henc, hreg]
  simp [Roster.Declines, TargetHandler.blank, TargetHandler.encode?, hopen, hfamily]

/-- What is listed depends on the rules and on what their handlers hold. -/
theorem targets_eq {d d' : Discoverer} (hrules : ∀ name, d'.rule? name = d.rule? name)
    (hannotated : ∀ target, d'.roster.encoding d'.annotated target =
      d.roster.encoding d.annotated target)
    (hheld : ∀ name p p', d.pipelines.get? name = some p → d'.pipelines.get? name = some p' →
      ∀ target, d'.roster.encoding p'.handler target = d.roster.encoding p.handler target) :
    d'.targets = d.targets := by
  have hof : ∀ {id id' : HandlerId} (rule pluginType : String),
      (∀ target, d'.roster.encoding id' target = d.roster.encoding id target) →
        d'.targetsOf rule pluginType id' = d.targetsOf rule pluginType id := by
    intro id id' rule pluginType h
    rw [targetsOf, targetsOf, show d'.roster.entries id' = d.roster.entries id from
      KeyMap.ext_get? h]
  have hmap : (d'.pipelines.map fun p => d'.targetsOf p.rule.name p.rule.pluginType p.handler) =
      d.pipelines.map fun p => d.targetsOf p.rule.name p.rule.pluginType p.handler := by
    refine KeyMap.ext_get? fun name => ?_
    rw [KeyMap.get?_map, KeyMap.get?_map]
    have hrule := hrules name
    rw [rule?, rule?] at hrule
    cases hp : d.pipelines.get? name with
    | none =>
      rw [hp] at hrule
      rw [Option.map_eq_none_iff.mp hrule]
      rfl
    | some p =>
      rw [hp, Option.map_some, Option.map_eq_some_iff] at hrule
      obtain ⟨p', hp', hrule⟩ := hrule
      rw [hp', Option.map_some, Option.map_some, hrule, hof _ _ (hheld name p p' hp hp')]
  have hvalues := congrArg KeyMap.values hmap
  simp only [KeyMap.values, KeyMap.map, List.map_map] at hvalues
  simp only [targets, List.flatMap_def, KeyMap.values, List.map_map]
  rw [hof _ _ hannotated]
  exact congrArg (List.flatten · ++ _) hvalues

/-! ## Nothing to do -/

section Again

variable {d : Discoverer} {leading : Bool} {rules : List Rule}

/-- Installing rules that are in effect once more, step by step. -/
theorem Applied.installation_eq (ha : d.Applied leading rules) :
    d.installation rules = rules.foldl Installation.step { discoverer := d } := by
  rw [Discoverer.installation, ha.kept_eq]

theorem Applied.inherits (hs : d.Sound) (ha : d.Applied leading rules) :
    Inherits d (d.installation rules).discoverer := by
  rw [ha.installation_eq]
  exact Sound.installAll_inherits (i := { discoverer := d }) hs rules

theorem Applied.encoders_installation (ha : d.Applied leading rules) :
    (d.installation rules).discoverer.encoders = d.encoders := by
  rw [ha.installation_eq]
  exact encoders_installAll { discoverer := d } rules

theorem Applied.same_installation (hs : d.Sound) (ha : d.Applied leading rules)
    (hsteady : ∀ p ∈ d.pipelines.values, d.Steady leading rules p) :
    d.roster.Same (d.installation rules).discoverer.roster := by
  rw [ha.installation_eq]
  refine Sound.same_installAll (i := { discoverer := d }) hs fun name p hp => ?_
  rw [← hs.named name p hp]
  exact (hsteady p (KeyMap.mem_values_iff.mpr ⟨name, hp⟩)).uniform

/-- A pipeline whose handler is new has replaced one that held nothing. -/
theorem Applied.encoding_installation (hs : d.Sound) (ha : d.Applied leading rules)
    (hsame : d.roster.Same (d.installation rules).discoverer.roster) {name : String}
    {p p' : Pipeline} (hp : d.pipelines.get? name = some p)
    (hp' : (d.installation rules).discoverer.pipelines.get? name = some p') (target : String) :
    d.roster.encoding p'.handler target = d.roster.encoding p.handler target := by
  have hinherits := ha.inherits hs
  rcases hinherits.origin name p' hp' with ⟨q, hq, hid, -⟩ | ⟨hnew, hnone⟩
  · obtain rfl := Option.some.inj (hq.symm.trans hp)
    rw [hid]
  · rw [← hsame.encoding, hnone, eq_comm, Option.eq_none_iff_forall_ne_some]
    intro config henc
    -- otherwise its handler would still be installed
    have hs' := hs.installation rules
    have hh : (d.installation rules).discoverer.roster.holds p.handler target = true :=
      Roster.holds_iff_encoding.mpr ⟨config, (hsame.encoding _ _).trans henc⟩
    rcases mem_installed.mp (hs'.mem_installed_of_holds hh) with hin | hann
    · obtain ⟨k, q, hq, hid⟩ := mem_handlers.mp hin
      obtain ⟨rfl, -⟩ := hinherits.eq_of_handler_eq hs hp hq hid
      obtain rfl := Option.some.inj (hq.symm.trans hp')
      exact Nat.not_le_of_lt (hid ▸ hs.lt_nextId hp) hnew
    · rw [ha.installation_eq, annotated_installAll] at hann
      exact hs.apart name p hp hann

/-- Nobody who is asked for the API server has anything to publish. -/
theorem Applied.rests_of_steady (hs : d.Sound) (ha : d.Applied leading rules)
    (hleading : leading = true) (hsteady : ∀ p ∈ d.pipelines.values, d.Steady leading rules p)
    {c : HandlerCall} (hc : c ∈ (d.installation rules).calls) :
    (d.installation rules).discoverer.Rests c := by
  have hs' := hs.installation rules
  have hsame := ha.same_installation hs hsteady
  have hcases := Sound.mem_installAll_calls (i := { discoverer := d.kept rules })
    (hs.kept rules) hc
  rcases hcases.resolve_left List.not_mem_nil with
    ⟨rule, p', hlast, hfor, hp', htype, rfl⟩ | ⟨id, rule, rfl, hid⟩
  swap
  · -- a handler that is not installed is closed
    refine hs'.rests_iff.mpr fun b hb => ?_
    obtain ⟨h, hh, rfl⟩ := Option.map_eq_some_iff.mp hb
    exact Or.inl (hs'.idle id h hh hid).2
  obtain ⟨p, hp, hrule⟩ : ∃ p, d.pipelines.get? rule.name = some p ∧ p.rule = p'.rule := by
    have hrule := ha.rule?_handleAll hs rule.name
    rw [rule?, pipelines_handleAll] at hrule
    have hsome := hrule.symm.trans (congrArg (Option.map (·.rule)) hp')
    exact Option.map_eq_some_iff.mp hsome
  have hmem : p ∈ d.pipelines.values := KeyMap.mem_values_iff.mpr ⟨_, hp⟩
  have htype' : p'.rule.pluginType = p.rule.pluginType := congrArg _ hrule.symm
  have henc := hs.encodeApiServer?_eq hs' ha.encoders_installation hp hp' htype' rule
  rw [hs'.rests_iff_of_mem (KeyMap.mem_values_iff.mpr ⟨_, hp'⟩), henc]
  cases henc' : d.encodeApiServer? p rule with
  | none => exact Or.inr (Or.inl rfl)
  | some config' =>
    -- somebody has answered before, perhaps the pipeline itself
    obtain ⟨registry, hreg, howned⟩ :=
      ha.answered hleading rule hlast hfor p hp (by rw [henc']; rfl)
    obtain ⟨i, hi⟩ := Option.isSome_iff_exists.mp howned
    rw [← hsame.owner?] at hi
    have hreg' := hs.registryOf?_eq hs' ha.encoders_installation hp hp' htype'
    by_cases hown : i = p'.handler
    swap
    · exact Or.inl ⟨registry, i, hreg'.trans hreg, hi, hown⟩
    subst hown
    obtain ⟨config, hconfig⟩ := Roster.holds_iff_encoding.mp ((hs'.consistent _ _ _).mp hi).2
    have hbefore : d.roster.encoding p.handler Resource.apiServer.targetName = some config := by
      rw [← ha.encoding_installation hs hsame hp hp', ← hsame.encoding, hconfig]
    have hequal := (hsteady p hmem).renewed hleading rule hlast.mem (hs.named _ p hp).symm
      hlast.isValid hfor config config' hbefore henc'
    rw [hconfig, hequal]
    exact Or.inr (Or.inr rfl)

/-- Where every pipeline is steady, making the rules the installed ones again changes nothing. -/
theorem Applied.untouched_of_steady (hs : d.Sound) (ha : d.Applied leading rules)
    (hsteady : ∀ p ∈ d.pipelines.values, d.Steady leading rules p) :
    d.Untouched (d.handleAll leading rules).2 := by
  have hsame := ha.same_installation hs hsteady
  have hall : d.roster.Same (d.handleAll leading rules).2.roster := by
    refine Roster.Same.trans ?_ (Roster.same_note _ _ _)
    refine hsame.trans ?_
    show Roster.Same (d.installation rules).discoverer.roster
      ((d.installation rules).discoverer.publishCount.performLeading leading
        (d.installation rules).calls).roster
    unfold performLeading
    split
    · next hleading =>
      have hfor := isForApiServer_of_mem_installation_calls d rules
      refine (hs.installation rules).publishCount.same_performAll
        (fun c hc => (hfor c hc).isHandle) fun c hc => ?_
      have hrests := ha.rests_of_steady hs hleading hsteady hc
      obtain ⟨id, rule, rfl⟩ := hfor c hc
      exact hrests
    · exact .refl _
  refine ⟨targets_eq (ha.rule?_handleAll hs) (fun target => ?_) fun name p p' hp hp' target => ?_,
    hall.owner?, hall.catalog, hall.calls⟩
  · rw [annotated_handleAll, hall.encoding]
  · rw [pipelines_handleAll] at hp'
    rw [hall.encoding, ha.encoding_installation hs hsame hp hp']

/-- A handler that still holds something after installing the rules again was not replaced. -/
theorem Applied.uniform_of_untouched (hs : d.Sound) (ha : d.Applied leading rules)
    (hun : d.Untouched (d.handleAll leading rules).2) {name : String} {p : Pipeline}
    (hp : d.pipelines.get? name = some p) {target : String}
    (hh : d.roster.holds p.handler target = true) : Uniform rules name p.rule.pluginType := by
  have hs' := hs.handleAll leading rules
  obtain ⟨h, hid, -⟩ := hs.ready (KeyMap.mem_values_iff.mpr ⟨name, hp⟩)
  have hreg := Roster.registryOf?_eq_some_iff.mpr ⟨h, hid, rfl⟩
  have howner := (hs.consistent h.registry target p.handler).mpr ⟨hreg, hh⟩
  rw [← hun.owner?, hs'.owner?_iff] at howner
  rcases mem_installed.mp howner.1 with hin | hann
  · obtain ⟨k, p', hp', hid'⟩ := mem_handlers.mp hin
    rw [pipelines_handleAll, ha.installation_eq] at hp'
    exact (Sound.handler_stays_iff (i := { discoverer := d }) hs hp).mp ⟨k, p', hp', hid'⟩
  · rw [annotated_handleAll] at hann
    exact absurd hann (hs.apart name p hp)

/-- Where nothing was asked of the catalog, every call for the API server rests. -/
theorem Applied.rests_of_untouched (hs : d.Sound) (ha : d.Applied true rules)
    (hun : d.Untouched (d.handleAll true rules).2) :
    ∀ c ∈ (d.installation rules).calls, (d.installation rules).discoverer.publishCount.Rests c := by
  have hs' := (hs.installation rules).publishCount
  have hhandle := fun c hc => (isForApiServer_of_mem_installation_calls d rules c hc).isHandle
  refine (hs'.calls_performAll_eq_iff hhandle).mp ?_
  have hinstalled : d.roster.calls <+: (d.installation rules).discoverer.roster.calls := by
    rw [ha.installation_eq]
    exact Roster.calls_prefix_withdrawals (installAll_withdrawals { discoverer := d } rules)
  have hperformed := hs'.calls_prefix_performAll hhandle
  have hcalls : ((d.installation rules).discoverer.publishCount.performAll
      (d.installation rules).calls).roster.calls = d.roster.calls := hun.calls
  have hlength := hcalls ▸ hperformed.length_le
  rw [hcalls]
  exact hinstalled.eq_of_length (Nat.le_antisymm hinstalled.length_le hlength)

/-- If making the rules the installed ones again changes nothing, every pipeline is steady. -/
theorem Applied.steady_of_untouched (hs : d.Sound) (ha : d.Applied leading rules)
    (hun : d.Untouched (d.handleAll leading rules).2) :
    ∀ p ∈ d.pipelines.values, d.Steady leading rules p := by
  intro p hmem
  obtain ⟨name, hp⟩ := KeyMap.mem_values_iff.mp hmem
  obtain rfl := hs.named name p hp
  refine ⟨?_, ?_⟩
  · by_cases hnone : ∀ target, d.roster.holds p.handler target = false
    · exact Or.inr hnone
    · obtain ⟨target, hh⟩ := not_forall.mp hnone
      exact Or.inl (ha.uniform_of_untouched hs hun hp (Bool.of_not_eq_false hh))
  · rintro rfl rule hrule hname hvalid hfor config config' henc henc'
    have hs' := hs.installation rules
    have hu := ha.uniform_of_untouched hs hun hp (Roster.holds_iff_encoding.mpr ⟨config, henc⟩)
    have htype := hu rule hrule hname hvalid
    have hlast : Lasting rules rule := by
      rw [← hname, ← htype] at hu
      exact hu.lasting hrule hvalid
    obtain ⟨p', hp', hid, htype'⟩ := Sound.get?_of_uniform (i := { discoverer := d }) hs hp hu
    obtain ⟨q, hq, -, hc⟩ := Sound.exists_call_of_lasting (i := { discoverer := d }) hs hlast hfor
    rw [hname, hp'] at hq
    obtain rfl := Option.some.inj hq
    rw [← ha.installation_eq] at hp' hc
    -- the handler has kept the target, so it has no reason to decline but the last one
    have hkept : (d.installation rules).discoverer.roster.encoding p'.handler
        Resource.apiServer.targetName = some config := by
      rcases (ha.inherits hs).origin _ p' hp' with ⟨-, -, -, -, hsame⟩ | ⟨hnew, -⟩
      · rw [hsame, hid, henc]
      · exact absurd (hid ▸ hs.lt_nextId hp) (Nat.not_lt_of_le hnew)
    have hencode := hs.encodeApiServer?_eq hs' ha.encoders_installation hp hp' htype' rule
    have hrests := (hs'.publishCount.rests_iff_of_mem (KeyMap.mem_values_iff.mpr ⟨_, hp'⟩) rule).mp
      (ha.rests_of_untouched hs hun _ hc)
    rcases hrests with ⟨registry, i, hreg, hi, hne⟩ | hnone | hcurrent
    · have howner := (hs'.consistent registry _ _).mpr
        ⟨hreg, Roster.holds_iff_encoding.mpr ⟨config, hkept⟩⟩
      exact absurd (Option.some.inj (hi.symm.trans howner)) hne
    · exact nomatch henc'.symm.trans (hencode.symm.trans hnone)
    · exact Option.some.inj (henc'.symm.trans (hencode.symm.trans (hcurrent.trans hkept)))

end Again

/-! ## Distinct names -/

/-- A handler that was asked for the API server under one rule only, and holds its target, holds
    what it was asked to publish. -/
theorem Sound.encoding_performAll_of_asked {d : Discoverer} (hs : d.Sound)
    {calls : List HandlerCall} (hcalls : ∀ c ∈ calls, c.IsForApiServer) {p : Pipeline}
    (hp : p ∈ d.pipelines.values) {rule : Rule}
    (honly : ∀ r, .handle p.handler .apiServer r ∈ calls → r = forApiServer rule)
    (hasked : .handle p.handler .apiServer (forApiServer rule) ∈ calls)
    {config config' : ScrapeConfig} (henc' : d.encodeApiServer? p rule = some config')
    (henc : (d.performAll calls).roster.encoding p.handler Resource.apiServer.targetName =
      some config) : config' = config := by
  induction calls generalizing d with
  | nil => cases hasked
  | cons c cs ih =>
    have hs' := hs.perform c
    have hfor : ∀ c ∈ cs, c.IsForApiServer := fun c' hc' => hcalls c' (List.mem_cons_of_mem c hc')
    by_cases hlater : .handle p.handler .apiServer (forApiServer rule) ∈ cs
    · refine ih hs' hfor ?_ (fun r hr => honly r (List.mem_cons_of_mem c hr)) hlater ?_ henc
      · rwa [(perform_pipelines d c).1]
      · exact (encode?_of_keeps (hs.perform_keeps c) _ _).trans henc'
    -- from here on no call is for the handler
    obtain rfl := (List.mem_cons.mp hasked).resolve_right hlater
    let asked := d.perform (.handle p.handler .apiServer (forApiServer rule))
    have hframe : (asked.performAll cs).roster.encoding p.handler Resource.apiServer.targetName =
        asked.roster.encoding p.handler Resource.apiServer.targetName := by
      refine hs'.encoding_performAll_of_ne fun c' hc' hreached => ?_
      obtain ⟨id, r, rfl⟩ := hfor c' hc'
      obtain rfl : p.handler = id := hreached.1
      rw [honly r (List.mem_cons_of_mem _ hc')] at hc'
      exact hlater hc'
    obtain ⟨h, hid, hopen, hfamily⟩ := hs.ready hp
    have hencode : h.encode? .apiServer (some (forApiServer rule)) = some config' :=
      (encode?_eq (p := { p with rule := forApiServer rule }) hid .apiServer).symm.trans henc'
    exact Roster.config_eq_of_encoding_handle hs.consistent hid hopen hfamily hencode
      (hframe.symm.trans henc)

/-- A valid rule of a list without two rules of one name is the one that is installed. -/
theorem Sound.eq_of_handleAll {d : Discoverer} (hs : d.Sound) {leading : Bool} {rules : List Rule}
    (hnodup : (rules.map (·.name)).Nodup) {p : Pipeline} {rule : Rule}
    (hp : (d.handleAll leading rules).2.pipelines.get? rule.name = some p) (hrule : rule ∈ rules)
    (hvalid : rule.isValid = true) : p.rule = rule := by
  have hinstalled := hs.rule?_handleAll leading rules rule.name
  obtain ⟨last, hlast⟩ := Option.isSome_iff_exists.mp
    (isSome_lastValid?_iff.mpr ⟨rule, hrule, rfl, hvalid⟩)
  rw [if_pos (List.mem_map_of_mem hrule), hlast, Option.some_or, rule?, hp] at hinstalled
  obtain ⟨hmem, hname, -⟩ := mem_of_lastValid? hlast
  exact (Option.some.inj hinstalled).trans (List.inj_on_of_nodup_map hnodup hmem hrule hname)

/-- Where no two rules of a list have one name, every valid rule of the name of a pipeline is of its
    type and asks it for what it holds. -/
theorem Sound.renewed_handleAll {d : Discoverer} (hs : d.Sound) (leading : Bool)
    {rules : List Rule} (hnodup : (rules.map (·.name)).Nodup) {p : Pipeline}
    (hmem : p ∈ (d.handleAll leading rules).2.pipelines.values) :
    Uniform rules p.rule.name p.rule.pluginType ∧
      (d.handleAll leading rules).2.Renewed leading rules p := by
  obtain ⟨name, hp⟩ := KeyMap.mem_values_iff.mp hmem
  obtain rfl := (hs.handleAll leading rules).named name p hp
  have hu : Uniform rules p.rule.name p.rule.pluginType := by
    intro rule hrule hname hvalid
    rw [← hname] at hp
    rw [hs.eq_of_handleAll hnodup hp hrule hvalid]
  refine ⟨hu, ?_⟩
  rintro rfl rule hrule hname hvalid hfor config config' henc henc'
  have hinst := hs.installation rules
  have hcalls := isForApiServer_of_mem_installation_calls d rules
  rw [pipelines_handleAll] at hp
  have hlast : Lasting rules rule := by
    have htype := hu rule hrule hname hvalid
    rw [← hname, ← htype] at hu
    exact hu.lasting hrule hvalid
  obtain ⟨q, hq, -, hc⟩ := Sound.exists_call_of_lasting (i := { discoverer := d.kept rules })
    (hs.kept rules) hlast hfor
  obtain rfl : q = p := by
    rw [hname] at hq
    exact Option.some.inj (hq.symm.trans hp)
  refine hinst.publishCount.encoding_performAll_of_asked hcalls
    (KeyMap.mem_values_iff.mpr ⟨_, hp⟩) (fun r hr => ?_) hc ?_ henc
  · have hcases := Sound.mem_installAll_calls (i := { discoverer := d.kept rules })
      (hs.kept rules) hr
    rcases hcases.resolve_left List.not_mem_nil with
      ⟨rule', q', hlast', -, hq', -, he⟩ | ⟨id, r', he, hid⟩
    · obtain ⟨hhandler, -, rfl⟩ := HandlerCall.handle.inj he
      have hsame := hinst.distinct _ _ _ _ hq' hq hhandler.symm
      rw [List.inj_on_of_nodup_map hnodup hlast'.mem hrule hsame]
    · obtain ⟨rfl, -, -⟩ := HandlerCall.handle.inj he
      exact absurd (mem_installed.mpr (Or.inl (mem_handlers.mpr ⟨_, _, hq, rfl⟩))) hid
  · exact (encode?_of_keeps (hs.installation_keeps true rules) _ _).symm.trans henc'

/-! ## Every run -/

/-- In every state of a run in which the rules of a list are in effect, whatever was reported of
    pods and services since: making them the installed ones again changes no target, encoding,
    recorded owner or live provider and asks nothing of the catalog exactly if every pipeline is
    steady. Where no two rules of the list have one name, this is so. -/
theorem untouched_handleAll_iff (settings : Settings) (nodeName : String) (ops : List Operation)
    (leading : Bool) (rules : List Rule) (reports : List Operation)
    (hreports : ∀ op ∈ reports, op.IsReport leading) :
    let d := (((start settings nodeName).run ops).handleAll leading rules).2.run reports
    let d' := (d.handleAll leading rules).2
    (d.Untouched d' ↔ ∀ p ∈ d.pipelines.values, d.Steady leading rules p) ∧
      ((rules.map (·.name)).Nodup → d.Untouched d') := by
  intro d d'
  have hs₀ : ((start settings nodeName).run ops).Sound := sound_run settings nodeName ops
  have hs₁ := hs₀.handleAll leading rules
  have hs : d.Sound := hs₁.run reports
  have haside : Aside _ d := hs₁.aside_run hreports
  have ha : d.Applied leading rules := (hs₀.applied_handleAll leading rules).aside hs₁ haside
  refine ⟨⟨ha.steady_of_untouched hs, ha.untouched_of_steady hs⟩, fun hnodup => ?_⟩
  refine ha.untouched_of_steady hs fun p hp => ?_
  rw [haside.pipelines] at hp
  obtain ⟨hu, hrenewed⟩ := hs₀.renewed_handleAll leading hnodup hp
  exact ⟨Or.inl hu, hrenewed.aside haside⟩

/-- A pod is held under the last of two rules of one name and of different types. When the rules are
    made the installed ones again, its target and its provider are gone. -/
theorem exists_lost_on_reapplication :
    let rules : List Rule :=
      [{ name := "a", pluginType := "telegraf/redis", selectors := { images := ["redis:*"] } },
        { name := "a", pluginType := "prometheus", selectors := { images := ["redis:*"] } }]
    let pod : Resource :=
      { kind := .pod, ip := "10.0.0.1", object := { name := "x", ns := "ns" }
        containers := [{ image := "redis:6", ports := [] }] }
    let d := ((start {} "node-1").handleAll false rules).2.run [.discover false pod]
    let d' := (d.handleAll false rules).2
    d.targets.map (·.name) = ["pod/ns/x"] ∧ d.roster.catalog.size = 1 ∧ d'.targets = [] ∧
      d'.roster.catalog.size = 0 ∧ d'.roster.calls.length = d.roster.calls.length + 1 := by
  decide +kernel

/-- A rule for pods and one for the API server, both of which hold a target. -/
theorem untouched_of_distinct_names :
    let rules : List Rule :=
      [{ name := "a", pluginType := "telegraf/redis", selectors := { images := ["redis:*"] } },
        { name := "b", pluginType := "prometheus", selectors := { resourceType := "apiserver" } }]
    let pod : Resource :=
      { kind := .pod, ip := "10.0.0.1", object := { name := "x", ns := "ns" }
        containers := [{ image := "redis:6", ports := [] }] }
    let d := (((start {} "node-1").run []).handleAll true rules).2.run [.discover true pod]
    d.targets.map (·.name) = ["pod/ns/x", "apiserver/kube-apiserver"] ∧
      d.Untouched (d.handleAll true rules).2 := by
  intro rules pod d
  have hreports : ∀ op ∈ [Operation.discover true pod], op.IsReport true := by
    intro op hop
    rw [List.mem_singleton.mp hop]
    exact ⟨rfl, by decide⟩
  refine ⟨by decide +kernel, ?_⟩
  exact (untouched_handleAll_iff {} "node-1" [] true rules _ hreports).2 (by decide)

end ScrapeDiscovery.Discoverer

import ScrapeDiscovery.Proofs.Discoverer.Handover

/-!
# Reconciling the installed rules with a list

A rule is valid if its selectors and its port have no fault and its plugin type is
known. A list of rules may have several of one name. Installing them one after the
other leaves the last valid one of each name, and where none is valid the rule that
was installed before. An invalid rule is counted and changes nothing else.

Where the names in the list are distinct, each name is installed at most once. A
pipeline then keeps its handler exactly if its plugin type stays the same.

Results:
* `Sound.install_isOk_iff`: the rules that can be installed are the valid ones.
* `Sound.rule?_installAll`, `Sound.failed_installAll`: installing rules, one after the other.
* `Sound.rule?_handleAll`: the rule that is installed under a name afterwards.
* `Sound.handler_installAll`: which pipelines keep their handlers.
* `Sound.encoding_of_kept`, `Sound.holds_of_replaced`: what the two sorts of pipelines hold.
* `handleAll_installs_last_valid`: all of this in every state of a run.
-/

namespace ScrapeDiscovery

/-! ## Valid rules -/

/-- Whether the selectors and the port of a rule have no fault and its plugin type is known. -/
def Rule.isValid (rule : Rule) : Bool :=
  (ResourceFilter.compile rule).isOk && (Family.ofPluginType rule.pluginType).isOk

theorem isOk_iff {ε α : Type} {x : Except ε α} : x.isOk = true ↔ ∃ a, x = .ok a := by
  cases x <;> simp [Except.isOk, Except.toBool]

/-- The last valid rule of a name in a list. -/
def lastValid? (rules : List Rule) (name : String) : Option Rule :=
  (rules.filter fun rule => rule.name = name && rule.isValid).getLast?

theorem lastValid?_cons (rule : Rule) (rules : List Rule) (name : String) :
    lastValid? (rule :: rules) name =
      (lastValid? rules name).or
        (if rule.name = name ∧ rule.isValid = true then some rule else none) := by
  unfold lastValid?
  by_cases h : rule.name = name ∧ rule.isValid = true
  · have hpick : (decide (rule.name = name) && rule.isValid) = true := by simp [h]
    rw [if_pos h, List.filter_cons, if_pos hpick, List.getLast?_cons]
    cases (rules.filter fun rule => rule.name = name && rule.isValid).getLast? <;> rfl
  · have hskip : ¬(decide (rule.name = name) && rule.isValid) = true := by simpa using h
    rw [if_neg h, List.filter_cons, if_neg hskip, Option.or_none]

theorem mem_of_lastValid? {rules : List Rule} {name : String} {rule : Rule}
    (h : lastValid? rules name = some rule) :
    rule ∈ rules ∧ rule.name = name ∧ rule.isValid = true := by
  have hmem := List.mem_filter.mp (List.mem_of_getLast? h)
  simpa using hmem

theorem isSome_lastValid?_iff {rules : List Rule} {name : String} :
    (lastValid? rules name).isSome = true ↔
      ∃ rule ∈ rules, rule.name = name ∧ rule.isValid = true := by
  constructor
  · intro h
    obtain ⟨rule, hrule⟩ := Option.isSome_iff_exists.mp h
    exact ⟨rule, mem_of_lastValid? hrule⟩
  · rintro ⟨rule, hrule, hvalid⟩
    have hmem : rule ∈ rules.filter fun rule => rule.name = name && rule.isValid :=
      List.mem_filter.mpr ⟨hrule, by simpa using hvalid⟩
    rw [lastValid?, List.getLast?_isSome]
    exact List.ne_nil_of_mem hmem

theorem lastValid?_filter (rules : List Rule) (name : String) :
    lastValid? (rules.filter (·.isValid)) name = lastValid? rules name := by
  unfold lastValid?
  rw [List.filter_filter]
  refine congrArg _ (List.filter_congr fun rule _ => ?_)
  cases rule.isValid <;> simp

namespace Discoverer

/-- There is an encoder for every plugin type that is known. -/
theorem exists_resolve {annotationPrefix nodeName pluginType : String} {family : Family}
    (hf : Family.ofPluginType pluginType = .ok family) :
    ∃ e, (EncoderTable.standard annotationPrefix nodeName).resolve pluginType = .ok e := by
  unfold EncoderTable.resolve
  split
  · exact ⟨_, rfl⟩
  · next hnone =>
    cases family with
    | telegraf => exact ⟨.telegraf .generic, by rw [hf]⟩
    | prometheus =>
      -- prometheus rules have an encoder of their own
      rw [ofPluginType_eq_prometheus hf, EncoderTable.get?_standard_encoders] at hnone
      exact absurd hnone (by simp)

/-- The rules that can be installed are the valid ones. -/
theorem Sound.install_isOk_iff {d : Discoverer} (hs : d.Sound) (rule : Rule) :
    (d.install rule).isOk = true ↔ rule.isValid = true := by
  rw [Rule.isValid, Bool.and_eq_true, isOk_iff, isOk_iff, isOk_iff]
  constructor
  · rintro ⟨⟨p, d'⟩, hi⟩
    obtain ⟨hf, -, ⟨old, hold, htype, -, -⟩ | ⟨h, hm, -⟩⟩ := install_eq_ok hi
    · -- the type of a pipeline was known when its handler was made
      obtain ⟨h, -, hm⟩ := hs.made rule.name old hold
      rw [htype] at hm
      exact ⟨⟨_, hf⟩, _, (makeHandler_eq_ok hm).2.1⟩
    · exact ⟨⟨_, hf⟩, _, (makeHandler_eq_ok hm).2.1⟩
  · rintro ⟨⟨f, hf⟩, family, hfamily⟩
    unfold Discoverer.install
    rw [hf]
    cases (d.pipelines.get? rule.name).filter (·.rule.pluginType = rule.pluginType) with
    | some old => exact ⟨_, rfl⟩
    | none =>
      obtain ⟨annotationPrefix, nodeName, hencoders, -⟩ := hs.setup
      have hresolve : ∃ e, d.encoders.resolve rule.pluginType = .ok e :=
        hencoders ▸ exists_resolve hfamily
      obtain ⟨e, he⟩ := hresolve
      simp only [makeHandler, hfamily, he]
      exact ⟨_, rfl⟩

/-! ## Installing rules -/

/-- The rule that is installed under a name. -/
def rule? (d : Discoverer) (name : String) : Option Rule := (d.pipelines.get? name).map (·.rule)

/-- Installing a rule concerns the pipeline of its name only. -/
theorem get?_install_of_ne {d d' : Discoverer} {rule : Rule} {p : Pipeline}
    (hi : d.install rule = .ok (p, d')) {name : String} (hne : name ≠ rule.name) :
    d'.pipelines.get? name = d.pipelines.get? name := by
  obtain ⟨-, -, ⟨old, -, -, -, rfl⟩ | ⟨h, -, hrec⟩⟩ := install_eq_ok hi
  · exact KeyMap.get?_insert_of_ne hne
  · obtain ⟨-, rfl⟩ := Prod.mk.inj hrec
    refine (KeyMap.get?_insert_of_ne hne).trans ?_
    rw [pipelines_teardown, if_neg hne]

theorem Sound.rule?_step {i : Installation} (hs : i.discoverer.Sound) (rule : Rule)
    (name : String) :
    (i.step rule).discoverer.rule? name =
      if rule.name = name ∧ rule.isValid = true then some rule else i.discoverer.rule? name := by
  have hok := hs.install_isOk_iff rule
  unfold Installation.step
  split
  · next p d' hi =>
    have hvalid : rule.isValid = true := hok.mp (by rw [hi]; rfl)
    by_cases hname : rule.name = name
    · subst hname
      rw [if_pos ⟨rfl, hvalid⟩, rule?, install_get? hi, Option.map_some, (install_eq_ok hi).2.1]
    · rw [if_neg fun h => hname h.1, rule?, get?_install_of_ne hi (Ne.symm hname), rule?]
  · next e hi =>
    have hinvalid : ¬rule.isValid = true := fun h => by
      have := hok.mpr h
      rw [hi] at this
      cases this
    rw [if_neg fun h => hinvalid h.2]

/-- Of several rules of a name the last valid one is installed in the end. -/
theorem Sound.rule?_installAll {i : Installation} (hs : i.discoverer.Sound) (rules : List Rule)
    (name : String) :
    (rules.foldl Installation.step i).discoverer.rule? name =
      (lastValid? rules name).or (i.discoverer.rule? name) := by
  induction rules generalizing i with
  | nil => rfl
  | cons rule rules ih =>
    refine (ih (hs.installStep rule)).trans ?_
    rw [hs.rule?_step, lastValid?_cons, Option.or_assoc]
    congr 1
    split_ifs <;> rfl

theorem Sound.failed_installAll {i : Installation} (hs : i.discoverer.Sound)
    (rules : List Rule) :
    (rules.foldl Installation.step i).failed =
      i.failed + rules.countP fun rule => !rule.isValid := by
  induction rules generalizing i with
  | nil => rfl
  | cons rule rules ih =>
    have hok := hs.install_isOk_iff rule
    have hstep : (i.step rule).failed = i.failed + if !rule.isValid then 1 else 0 := by
      unfold Installation.step
      split
      · next hi =>
        have hvalid : rule.isValid = true := hok.mp (by rw [hi]; rfl)
        rw [hvalid]
        rfl
      · next e hi =>
        have hinvalid : rule.isValid = false := by
          rw [← Bool.not_eq_true, ← hok, hi]
          exact Bool.false_ne_true
        rw [hinvalid]
        rfl
    refine (ih (hs.installStep rule)).trans ?_
    rw [hstep, List.countP_cons]
    omega

/-! ## A complete list -/

/-- What is left of the installed rules when those that a list does not have were removed. -/
def kept (d : Discoverer) (rules : List Rule) : Discoverer := (d.missing rules).foldl teardown d

/-- Removing the installed rules that a list does not have, and installing those it has. -/
def installation (d : Discoverer) (rules : List Rule) : Installation :=
  rules.foldl Installation.step { discoverer := d.kept rules }

theorem Sound.kept {d : Discoverer} (hs : d.Sound) (rules : List Rule) : (d.kept rules).Sound :=
  hs.teardownAll (d.missing rules)

theorem Sound.installation {d : Discoverer} (hs : d.Sound) (rules : List Rule) :
    (d.installation rules).discoverer.Sound :=
  Sound.installAll (i := { discoverer := d.kept rules }) (hs.kept rules) rules

theorem installation_withdrawals (d : Discoverer) (rules : List Rule) :
    Roster.Withdrawals d.roster (d.installation rules).discoverer.roster :=
  (d.teardownAll_withdrawals (d.missing rules)).trans
    (installAll_withdrawals { discoverer := d.kept rules } rules)

theorem pipelines_handleAll (d : Discoverer) (leading : Bool) (rules : List Rule) :
    (d.handleAll leading rules).2.pipelines = (d.installation rules).discoverer.pipelines :=
  (performLeading_pipelines (d.installation rules).discoverer.publishCount leading _).1

theorem mem_missing {d : Discoverer} {rules : List Rule} {name : String} :
    name ∈ d.missing rules ↔
      (∃ p, d.pipelines.get? name = some p) ∧ name ∉ rules.map (·.name) := by
  simp [missing, List.mem_filter, KeyMap.mem_keys_iff]

theorem get?_kept (d : Discoverer) (rules : List Rule) (name : String) :
    (d.kept rules).pipelines.get? name =
      if name ∈ rules.map (·.name) then d.pipelines.get? name else none := by
  rw [Discoverer.kept, pipelines_teardownAll]
  by_cases hin : name ∈ rules.map (·.name)
  · rw [if_pos hin, if_neg fun h => (mem_missing.mp h).2 hin]
  · rw [if_neg hin]
    split_ifs with hmissing
    · rfl
    · by_contra hsome
      exact hmissing (mem_missing.mpr ⟨Option.ne_none_iff_exists'.mp hsome, hin⟩)

/-- The rule that is installed under a name after a complete list of rules. -/
theorem Sound.rule?_handleAll {d : Discoverer} (hs : d.Sound) (leading : Bool)
    (rules : List Rule) (name : String) :
    (d.handleAll leading rules).2.rule? name =
      if name ∈ rules.map (·.name) then (lastValid? rules name).or (d.rule? name) else none := by
  have hall := Sound.rule?_installAll (i := { discoverer := d.kept rules }) (hs.kept rules) rules
    name
  rw [rule?, pipelines_handleAll]
  refine hall.trans ?_
  rw [rule?, get?_kept]
  split_ifs with hin
  · rfl
  · -- a valid rule of that name would be in the list
    rw [Option.map_none, Option.or_none, Option.eq_none_iff_forall_ne_some]
    intro rule hrule
    obtain ⟨hmem, hname, -⟩ := mem_of_lastValid? hrule
    exact hin (List.mem_map.mpr ⟨rule, hmem, hname⟩)

/-! ## Distinct names -/

theorem Sound.get?_installAll_of_not_mem {i : Installation} (hs : i.discoverer.Sound)
    {rules : List Rule} {name : String} (hnot : name ∉ rules.map (·.name)) :
    (rules.foldl Installation.step i).discoverer.pipelines.get? name =
      i.discoverer.pipelines.get? name := by
  induction rules generalizing i with
  | nil => rfl
  | cons rule rules ih =>
    rw [List.map_cons, List.mem_cons, not_or] at hnot
    refine (ih (hs.installStep rule) hnot.2).trans ?_
    unfold Installation.step
    split
    · next hi => exact get?_install_of_ne hi hnot.1
    · rfl

/-- A pipeline that is replaced keeps its handler if its plugin type stays the same, and else gets a
    new one. -/
theorem Sound.handler_install {d d' : Discoverer} (hs : d.Sound) {rule : Rule} {p p' : Pipeline}
    (hi : d.install rule = .ok (p', d')) (hp : d.pipelines.get? rule.name = some p) :
    if p'.rule.pluginType = p.rule.pluginType then p'.handler = p.handler
    else d.roster.nextId ≤ p'.handler := by
  have hlt := hs.lt_nextId hp
  simp only [Discoverer.install, bind_eq_ok_iff] at hi
  obtain ⟨filter, -, hi⟩ := hi
  rw [hp] at hi
  by_cases htype : p.rule.pluginType = rule.pluginType
  · rw [Option.filter_some, if_pos (decide_eq_true htype)] at hi
    cases hi
    rw [if_pos htype.symm]
  · rw [Option.filter_some, if_neg (by simpa using htype)] at hi
    obtain ⟨h, -, hi⟩ := bind_eq_ok_iff.mp hi
    cases hi
    exact (if_neg (Ne.symm htype)).mpr (Nat.le_refl _)

/-- Where the names are distinct, a pipeline keeps its handler if its plugin type stays the same,
    and else gets a new one. -/
theorem Sound.handler_installAll {i : Installation} (hs : i.discoverer.Sound) {rules : List Rule}
    (hnodup : (rules.map (·.name)).Nodup) {name : String} {p p' : Pipeline}
    (hp : i.discoverer.pipelines.get? name = some p)
    (hp' : (rules.foldl Installation.step i).discoverer.pipelines.get? name = some p') :
    if p'.rule.pluginType = p.rule.pluginType then p'.handler = p.handler
    else i.discoverer.roster.nextId ≤ p'.handler := by
  induction rules generalizing i with
  | nil =>
    obtain rfl := Option.some.inj (hp.symm.trans hp')
    rw [if_pos rfl]
  | cons rule rules ih =>
    rw [List.map_cons, List.nodup_cons] at hnodup
    have hs' := hs.installStep rule
    have hgrows := (hs.installStep_inherits rule).nextId_le
    by_cases hname : name = rule.name
    · -- no later rule has this name
      subst hname
      rw [List.foldl_cons, hs'.get?_installAll_of_not_mem hnodup.1] at hp'
      unfold Installation.step at hp'
      split at hp'
      · next hi =>
        obtain rfl := Option.some.inj ((install_get? hi).symm.trans hp')
        exact hs.handler_install hi hp
      · obtain rfl := Option.some.inj (hp.symm.trans hp')
        rw [if_pos rfl]
    · have hsame : (i.step rule).discoverer.pipelines.get? name = some p := by
        unfold Installation.step
        split
        · next hi => exact (get?_install_of_ne hi hname).trans hp
        · exact hp
      have hrest := ih hs' hnodup.2 hsame hp'
      split_ifs at hrest ⊢
      · exact hrest
      · exact Nat.le_trans hgrows hrest

theorem Sound.handler_handleAll {d : Discoverer} (hs : d.Sound) (leading : Bool)
    {rules : List Rule} (hnodup : (rules.map (·.name)).Nodup) {name : String} {p p' : Pipeline}
    (hp : d.pipelines.get? name = some p)
    (hp' : (d.handleAll leading rules).2.pipelines.get? name = some p') :
    if p'.rule.pluginType = p.rule.pluginType then p'.handler = p.handler
    else d.roster.nextId ≤ p'.handler := by
  have hgrows := (hs.teardownAll_inherits (d.missing rules)).nextId_le
  rw [pipelines_handleAll] at hp'
  have hin : name ∈ rules.map (·.name) := by
    by_contra hnot
    have hgone := Sound.get?_installAll_of_not_mem (i := { discoverer := d.kept rules })
      (hs.kept rules) hnot
    rw [get?_kept, if_neg hnot] at hgone
    cases hp'.symm.trans hgone
  have hkept : (d.kept rules).pipelines.get? name = some p := by
    rw [get?_kept, if_pos hin, hp]
  have hall := Sound.handler_installAll (i := { discoverer := d.kept rules }) (hs.kept rules)
    hnodup hkept hp'
  split_ifs at hall ⊢
  · exact hall
  · exact Nat.le_trans hgrows hall

/-! ## Replaced handlers -/

theorem annotated_teardown (d : Discoverer) (name : String) :
    (d.teardown name).annotated = d.annotated := by
  unfold teardown
  split <;> rfl

theorem annotated_install {d d' : Discoverer} {rule : Rule} {p : Pipeline}
    (hi : d.install rule = .ok (p, d')) : d'.annotated = d.annotated := by
  obtain ⟨-, -, ⟨old, -, -, -, rfl⟩ | ⟨h, -, hrec⟩⟩ := install_eq_ok hi
  · rfl
  · obtain ⟨-, rfl⟩ := Prod.mk.inj hrec
    exact annotated_teardown _ _

theorem annotated_teardownAll (d : Discoverer) (names : List String) :
    (names.foldl teardown d).annotated = d.annotated := by
  induction names generalizing d with
  | nil => rfl
  | cons name names ih => exact (ih (d.teardown name)).trans (annotated_teardown d name)

theorem annotated_installAll (i : Installation) (rules : List Rule) :
    (rules.foldl Installation.step i).discoverer.annotated = i.discoverer.annotated := by
  induction rules generalizing i with
  | nil => rfl
  | cons rule rules ih =>
    refine (ih (i.step rule)).trans ?_
    unfold Installation.step
    split
    · next hi => exact annotated_install hi
    · rfl

theorem annotated_installation (d : Discoverer) (rules : List Rule) :
    (d.installation rules).discoverer.annotated = d.annotated :=
  (annotated_installAll { discoverer := d.kept rules } rules).trans
    (d.annotated_teardownAll (d.missing rules))

theorem encoders_installAll (i : Installation) (rules : List Rule) :
    (rules.foldl Installation.step i).discoverer.encoders = i.discoverer.encoders := by
  induction rules generalizing i with
  | nil => rfl
  | cons rule rules ih =>
    refine (ih (i.step rule)).trans ?_
    unfold Installation.step
    split
    · next hi =>
      obtain ⟨-, -, ⟨old, -, -, -, rfl⟩ | ⟨h, -, hrec⟩⟩ := install_eq_ok hi
      · rfl
      · obtain ⟨-, rfl⟩ := Prod.mk.inj hrec
        show (Discoverer.teardown { i.discoverer with roster := _ } rule.name).encoders = _
        unfold Discoverer.teardown
        split <;> rfl
    · rfl

theorem annotated_performLeading (d : Discoverer) (leading : Bool) (calls : List HandlerCall) :
    (d.performLeading leading calls).annotated = d.annotated := by
  unfold performLeading
  split
  · rw [performAll_eq]
  · rfl

theorem annotated_handleAll (d : Discoverer) (leading : Bool) (rules : List Rule) :
    (d.handleAll leading rules).2.annotated = d.annotated :=
  calc (d.handleAll leading rules).2.annotated
    _ = (d.installation rules).discoverer.annotated :=
      annotated_performLeading (d.installation rules).discoverer.publishCount leading _
    _ = d.annotated := d.annotated_installation rules

/-- A pipeline of another plugin type starts from nothing, and the handler it had before holds
    nothing any longer. -/
theorem Sound.holds_of_replaced {d : Discoverer} (hs : d.Sound) {leading : Bool}
    {rules : List Rule} (hnodup : (rules.map (·.name)).Nodup) {name : String} {p p' : Pipeline}
    (hp : d.pipelines.get? name = some p)
    (hp' : (d.handleAll leading rules).2.pipelines.get? name = some p')
    (htype : p'.rule.pluginType ≠ p.rule.pluginType) (target : String) :
    (d.handleAll leading rules).2.roster.holds p.handler target = false ∧
      ((d.handleAll leading rules).2.roster.holds p'.handler target = true →
        target = Resource.apiServer.targetName) := by
  have hs' := hs.handleAll leading rules
  have hnew : d.roster.nextId ≤ p'.handler := by
    have hall := hs.handler_handleAll leading hnodup hp hp'
    rwa [if_neg htype] at hall
  refine ⟨?_, fun hh => ?_⟩
  · rw [← Bool.not_eq_true]
    intro hh
    rcases mem_installed.mp (hs'.mem_installed_of_holds hh) with hin | hann
    · obtain ⟨k, q', hq', hid⟩ := mem_handlers.mp hin
      -- only a pipeline of the name could go on using the handler
      have hnone : "" = Resource.apiServer.targetName →
          ∀ rule ∈ rules, rule.name = k → ¬rule.IsForApiServer := fun he => absurd he (by decide)
      rcases hs.handleAll_inherits leading hq' hnone with ⟨q, hq, hsame, -⟩ | ⟨hle, -⟩
      · obtain rfl := hs.distinct k name q p hq hp (hsame.trans hid)
        obtain rfl := Option.some.inj (hq'.symm.trans hp')
        exact Nat.not_le_of_lt (hid ▸ hs.lt_nextId hp) hnew
      · exact Nat.not_le_of_lt (hid ▸ hs.lt_nextId hp) hle
    · rw [annotated_handleAll] at hann
      exact hs.apart name p hp hann
  · by_contra hne
    obtain ⟨config, he⟩ := Roster.holds_iff_encoding.mp hh
    rcases hs.handleAll_inherits leading hp' fun h => absurd h hne with
      ⟨q, hq, hid, -⟩ | ⟨-, hnone⟩
    · exact Nat.not_le_of_lt (hid ▸ hs.lt_nextId hq) hnew
    · rw [hnone] at he
      cases he

/-- A pipeline whose plugin type stays the same keeps its handler with the encodings of all targets
    but the API server's. -/
theorem Sound.encoding_of_kept {d : Discoverer} (hs : d.Sound) {leading : Bool}
    {rules : List Rule} (hnodup : (rules.map (·.name)).Nodup) {name : String} {p p' : Pipeline}
    (hp : d.pipelines.get? name = some p)
    (hp' : (d.handleAll leading rules).2.pipelines.get? name = some p')
    (htype : p'.rule.pluginType = p.rule.pluginType) :
    p'.handler = p.handler ∧ ∀ target, target ≠ Resource.apiServer.targetName →
      (d.handleAll leading rules).2.roster.encoding p.handler target =
        d.roster.encoding p.handler target := by
  have hsame : p'.handler = p.handler := by
    have hall := hs.handler_handleAll leading hnodup hp hp'
    rwa [if_pos htype] at hall
  refine ⟨hsame, fun target hne => ?_⟩
  rcases hs.handleAll_inherits leading hp' fun h => absurd h hne with
    ⟨q, -, -, -, henc⟩ | ⟨hnew, -⟩
  · rw [← hsame, henc]
  · exact absurd (hsame ▸ hs.lt_nextId hp) (Nat.not_lt_of_le hnew)

/-! ## Every run -/

/-- In every state of a run, making the rules of a list the installed ones leaves a rule installed
    under exactly the names in the list that have a valid rule there or had a rule before: the last
    valid one of the name, and else the one before. It answers how many rules of the list are
    invalid and makes the number of installed rules known. Where the names in the list are
    distinct, a rule of the same plugin type as before goes on with the handler and all its
    encodings, the API server's target apart, and one of another type starts from nothing but that
    target, while the handler before holds nothing any longer. Without the invalid rules the same
    rule is installed under every name that has a valid one. -/
theorem handleAll_installs_last_valid (settings : Settings) (nodeName : String)
    (ops : List Operation) (leading : Bool) (rules : List Rule) :
    let d := (start settings nodeName).run ops
    let d' := (d.handleAll leading rules).2
    (∀ name, (d'.pipelines.get? name).isSome = true ↔
      (∃ rule ∈ rules, rule.name = name) ∧
        ((∃ rule ∈ rules, rule.name = name ∧ rule.isValid = true) ∨
          (d.pipelines.get? name).isSome = true)) ∧
    (∀ name p', d'.pipelines.get? name = some p' →
      some p'.rule = (lastValid? rules name).or (d.rule? name)) ∧
    (d.handleAll leading rules).1 = rules.countP (fun rule => !rule.isValid) ∧
    d'.ruleGauge = d'.pipelines.size ∧
    ((rules.map (·.name)).Nodup → ∀ name p p', d.pipelines.get? name = some p →
      d'.pipelines.get? name = some p' →
      (p'.rule.pluginType = p.rule.pluginType → p'.handler = p.handler ∧
        ∀ target, target ≠ Resource.apiServer.targetName →
          d'.roster.encoding p.handler target = d.roster.encoding p.handler target) ∧
      (p'.rule.pluginType ≠ p.rule.pluginType → ∀ target,
        d'.roster.holds p.handler target = false ∧
          (d'.roster.holds p'.handler target = true →
            target = Resource.apiServer.targetName))) ∧
    ∀ name, (∃ rule ∈ rules, rule.name = name ∧ rule.isValid = true) →
      (d.handleAll leading (rules.filter (·.isValid))).2.rule? name = d'.rule? name := by
  intro d d'
  have hs : d.Sound := sound_run settings nodeName ops
  have hrule : ∀ name, d'.rule? name = _ := hs.rule?_handleAll leading rules
  refine ⟨fun name => ?_, fun name p' hp' => ?_, ?_, d.handleAll_ruleGauge leading rules,
    fun hnodup name p p' hp hp' => ⟨hs.encoding_of_kept hnodup hp hp',
      hs.holds_of_replaced hnodup hp hp'⟩, fun name hvalid => ?_⟩
  · have hsome : (d'.pipelines.get? name).isSome = (d'.rule? name).isSome :=
      Option.isSome_map.symm
    rw [hsome, hrule]
    by_cases hin : name ∈ rules.map (·.name)
    · rw [if_pos hin, Option.isSome_or, Bool.or_eq_true, isSome_lastValid?_iff, rule?,
        Option.isSome_map]
      exact (and_iff_right (List.mem_map.mp hin)).symm
    · rw [if_neg hin]
      exact iff_of_false Bool.false_ne_true fun h => hin (List.mem_map.mpr h.1)
  · have hp := hrule name
    have hin : name ∈ rules.map (·.name) := by
      by_contra hnot
      rw [if_neg hnot, rule?, hp'] at hp
      cases hp
    rw [if_pos hin, rule?, hp'] at hp
    exact hp
  · have hall := Sound.failed_installAll (i := { discoverer := d.kept rules }) (hs.kept rules)
      rules
    exact hall.trans (Nat.zero_add _)
  · obtain ⟨rule, hmem, hname, hok⟩ := hvalid
    have hin : name ∈ rules.map (·.name) := List.mem_map.mpr ⟨rule, hmem, hname⟩
    have hin' : name ∈ (rules.filter (·.isValid)).map (·.name) :=
      List.mem_map.mpr ⟨rule, List.mem_filter.mpr ⟨hmem, hok⟩, hname⟩
    rw [hrule, if_pos hin, hs.rule?_handleAll, if_pos hin', lastValid?_filter]

end Discoverer

end ScrapeDiscovery

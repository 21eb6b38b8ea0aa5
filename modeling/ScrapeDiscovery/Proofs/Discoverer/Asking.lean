import Mathlib.Data.List.Induction
import ScrapeDiscovery.Proofs.Discoverer.Exclusion

/-!
# Resources that ask for themselves

A resource that no rule claims is served if it asks for itself and the policy allows it.
It asks with an address and an annotation. The policy is the one that was decided last,
and of the selectors that a decision names only those count that can be compiled. Who
held the target before makes no difference, for rules without a claim have given it up
by then, so that in the registry of prometheus targets nobody stands in the way.

Results:
* `Encoder.encode_unclaimed_eq_none_iff`: only what asks for itself is encoded, or found to be
  faulty.
* `setup_run`: the policy is the one that was decided last.
* `Sound.encoding_annotated_discover`: what is held of a resource that no rule claims.
* `unclaimed_outcome`: the same for every state of a run.
-/

namespace ScrapeDiscovery

/-! ## Asking -/

/-- Whether a resource asks to be scraped: it has an address and is annotated so. -/
def Resource.Asks (keys : AnnotationKeys) (r : Resource) : Prop :=
  r.ip ≠ "" ∧ r.ip ≠ "None" ∧ r.object.annotations.get? keys.scrape = some "true"

/-- Whether selectors that can be compiled match a resource. -/
def Selectors.Exclude (s : Selectors) (r : Resource) : Prop :=
  ∃ f, ResourceFilter.compile { name := "", pluginType := "prometheus", selectors := s } = .ok f ∧
    f.isMatch r = true

theorem setting_scrape_iff {keys : AnnotationKeys} {object : ObjectMeta} :
    setting object (some keys.scrape) "" "false" = "true" ↔
      object.annotations.get? keys.scrape = some "true" := by
  rw [setting, Option.bind_some]
  cases object.annotations.get? keys.scrape with
  | none => simp
  | some value =>
    by_cases hvalue : value = ""
    · subst hvalue
      simp
    · simp [hvalue]

theorem hasAddress_iff {ip : String} : hasAddress ip = true ↔ ip ≠ "" ∧ ip ≠ "None" := by
  simp [hasAddress]

/-- Without a rule the prometheus encoder has nothing to encode exactly where a resource does not
    ask for itself. -/
theorem Encoder.encode_unclaimed_eq_none_iff {keys : AnnotationKeys} {nodeName : String}
    {r : Resource} :
    (Encoder.prometheus keys nodeName).encode r.ip r.kind r.object none = .ok none ↔
      ¬r.Asks keys := by
  rw [encode_eq_none_iff, Resource.Asks, ← and_assoc, ← hasAddress_iff, ← setting_scrape_iff,
    not_and_or, Bool.not_eq_true]
  simp [isAsked]

namespace AnnotationPolicy

theorem toOption_eq_some_iff {ε α : Type} {x : Except ε α} {a : α} :
    x.toOption = some a ↔ x = .ok a := by
  cases x <;> simp [Except.toOption]

theorem isExcluded_compile {excludes : List Selectors} {r : Resource} (disabled : Bool) :
    (compile excludes disabled).isExcluded r = true ↔ ∃ s ∈ excludes, s.Exclude r := by
  simp only [isExcluded, compile, List.any_eq_true, List.mem_filterMap, Selectors.Exclude]
  constructor
  · rintro ⟨f, ⟨s, hs, hf⟩, hmatch⟩
    exact ⟨s, hs, f, toOption_eq_some_iff.mp hf, hmatch⟩
  · rintro ⟨s, hs, f, hf, hmatch⟩
    exact ⟨f, ⟨s, hs, toOption_eq_some_iff.mpr hf⟩, hmatch⟩

theorem allows_compile {excludes : List Selectors} {disabled : Bool} {r : Resource} :
    (compile excludes disabled).allows r = true ↔
      ¬(disabled = true ∨ ∃ s ∈ excludes, s.Exclude r) := by
  rw [← isExcluded_compile disabled, allows, Bool.and_eq_true, not_or,
    Bool.not_eq_true', Bool.not_eq_true', Bool.not_eq_true, Bool.not_eq_true]
  rfl

end AnnotationPolicy

namespace Discoverer

open Roster

variable {d d' d'' : Discoverer}

/-! ## What an operation leaves as it was set up -/

/-- The encoders and the policy are the same. -/
structure SameSetup (d d' : Discoverer) : Prop where
  encoders : d'.encoders = d.encoders
  policy : d'.policy = d.policy

theorem SameSetup.refl (d : Discoverer) : SameSetup d d := ⟨rfl, rfl⟩

theorem SameSetup.trans (h : SameSetup d d') (h' : SameSetup d' d'') : SameSetup d d'' :=
  ⟨h'.encoders.trans h.encoders, h'.policy.trans h.policy⟩

theorem sameSetup_foldl {α : Type} {f : Discoverer → α → Discoverer}
    (hf : ∀ d a, SameSetup d (f d a)) (d : Discoverer) (as : List α) :
    SameSetup d (as.foldl f d) :=
  as.foldlRecOn f (.refl d) fun d' h a _ => h.trans (hf d' a)

theorem sameSetup_performAll (d : Discoverer) (calls : List HandlerCall) :
    SameSetup d (d.performAll calls) := by
  rw [performAll_eq]
  exact ⟨rfl, rfl⟩

theorem sameSetup_performLeading (d : Discoverer) (leading : Bool) (calls : List HandlerCall) :
    SameSetup d (d.performLeading leading calls) := by
  unfold performLeading
  split
  · exact d.sameSetup_performAll calls
  · exact .refl d

theorem sameSetup_teardown (d : Discoverer) (name : String) : SameSetup d (d.teardown name) := by
  unfold teardown
  split <;> exact ⟨rfl, rfl⟩

theorem sameSetup_install {rule : Rule} {p : Pipeline} (hi : d.install rule = .ok (p, d')) :
    SameSetup d d' := by
  obtain ⟨-, -, ⟨old, -, -, -, rfl⟩ | ⟨h, -, hrec⟩⟩ := install_eq_ok hi
  · exact ⟨rfl, rfl⟩
  · obtain ⟨-, rfl⟩ := Prod.mk.inj hrec
    have ht := sameSetup_teardown { d with roster := d.roster.add h } rule.name
    exact ⟨ht.encoders, ht.policy⟩

theorem sameSetup_installAll (i : Installation) (rules : List Rule) :
    SameSetup i.discoverer (rules.foldl Installation.step i).discoverer := by
  induction rules generalizing i with
  | nil => exact .refl _
  | cons rule rules ih =>
    refine SameSetup.trans ?_ (ih (i.step rule))
    unfold Installation.step
    split
    · next hi => exact sameSetup_install hi
    · exact .refl _

theorem sameSetup_handleAll (d : Discoverer) (leading : Bool) (rules : List Rule) :
    SameSetup d (d.handleAll leading rules).2 := by
  have hkept : SameSetup d (d.kept rules) := sameSetup_foldl sameSetup_teardown d (d.missing rules)
  have hinstalled := sameSetup_installAll { discoverer := d.kept rules } rules
  have hasked := (d.installation rules).discoverer.publishCount.sameSetup_performLeading leading
    (d.installation rules).calls
  exact (hkept.trans hinstalled).trans ⟨hasked.encoders, hasked.policy⟩

theorem sameSetup_handle {leading : Bool} {rule : Rule} (hh : d.handle leading rule = .ok d') :
    SameSetup d d' := by
  simp only [Discoverer.handle, bind_eq_ok_iff] at hh
  obtain ⟨⟨p, d₁⟩, hi, hh⟩ := hh
  cases hh
  have hasked := d₁.publishCount.sameSetup_performLeading leading (apiServerCalls p)
  exact (sameSetup_install hi).trans ⟨hasked.encoders, hasked.policy⟩

theorem sameSetup_discover (d : Discoverer) (leading : Bool) (resource : Resource) :
    SameSetup d (d.discover leading resource) := by
  unfold discover
  split
  · exact .refl d
  · exact d.sameSetup_performAll _

/-- Which resources may not ask and whether none may, where an operation decides it. -/
def Operation.decision? : Operation → Option (List Selectors × Bool)
  | .setAnnotationPolicy excludes disabled => some (excludes, disabled)
  | _ => none

theorem sameSetup_step {op : Operation} (hop : op.decision? = none) :
    SameSetup d (d.step op) := by
  cases op with
  | handleAll leading rules => exact d.sameSetup_handleAll leading rules
  | handle leading rule =>
    simp only [Discoverer.step]
    cases hh : d.handle leading rule with
    | error _ => exact .refl d
    | ok d' => exact sameSetup_handle hh
  | delete name =>
    have ht := d.sameSetup_teardown name
    exact ⟨ht.encoders, ht.policy⟩
  | discover leading resource => exact d.sameSetup_discover leading resource
  | deleteResource resource => exact d.sameSetup_performAll _
  | deleteClusterScoped resources =>
    exact (sameSetup_foldl (fun d _ => d.sameSetup_performAll _) d resources).trans
      (sameSetup_performAll _ _)
  | setAnnotationPolicy excludes disabled => cases hop
  | refreshApiServer leading => exact d.sameSetup_performLeading leading _
  | deleteAll =>
    have hall := d.sameSetup_handleAll false []
    exact ⟨hall.encoders, hall.policy⟩

/-- What was decided last about asking: by an operation, or in the settings. -/
def decided (settings : Settings) (ops : List Operation) : List Selectors × Bool :=
  ops.foldl (fun last op => op.decision?.getD last)
    (settings.annotationExcludes, settings.annotationsDisabled)

/-- The encoders never change, and the policy is the one that was decided last. -/
theorem setup_run (settings : Settings) (nodeName : String) (ops : List Operation) :
    let d := (start settings nodeName).run ops
    d.encoders = .standard settings.effectivePrefix nodeName ∧
      d.policy = .compile (decided settings ops).1 (decided settings ops).2 := by
  induction ops using List.reverseRecOn with
  | nil => exact ⟨rfl, rfl⟩
  | append_singleton ops op ih =>
    have hdecided : decided settings (ops ++ [op]) = op.decision?.getD (decided settings ops) := by
      rw [decided, List.foldl_append]
      rfl
    have hrun : (start settings nodeName).run (ops ++ [op]) =
        ((start settings nodeName).run ops).step op := List.foldl_append
    dsimp only at ih ⊢
    rw [hrun, hdecided]
    cases hop : op.decision? with
    | none =>
      have hsame : SameSetup ((start settings nodeName).run ops) _ := sameSetup_step hop
      exact ⟨hsame.encoders.trans ih.1, hsame.policy.trans ih.2⟩
    | some decision =>
      cases op with
      | setAnnotationPolicy excludes disabled =>
        cases hop
        simp only [step, setAnnotationPolicy]
        split <;> exact ⟨ih.1, rfl⟩
      | _ => cases hop

/-! ## The handler of the targets that ask for themselves -/

/-- The handler of the targets that ask for themselves encodes like prometheus rules. -/
theorem Sound.handler?_annotated (hs : d.Sound) {annotationPrefix nodeName : String}
    (hencoders : d.encoders = .standard annotationPrefix nodeName) :
    ∃ h, d.roster.handler? d.annotated = some h ∧
      h.blank = annotationHandler annotationPrefix nodeName := by
  obtain ⟨annotationPrefix', nodeName', hencoders', hb⟩ := hs.setup
  obtain ⟨h, hid, hb⟩ := Option.map_eq_some_iff.mp hb
  refine ⟨h, hid, hb.trans ?_⟩
  have htable := congrArg (fun t : EncoderTable => t.encoders.get? "prometheus")
    (hencoders'.symm.trans hencoders)
  simp only [EncoderTable.get?_standard_encoders] at htable
  have hencoder := Option.some.inj htable
  rw [annotationHandler, annotationHandler, hencoder]

end Discoverer

/-- What a handler holds of a target that asked for itself, after it was asked for it with
    nobody in its way. -/
theorem Roster.encoding_handle_confirmed {r : Roster} (hc : r.Consistent) {id : HandlerId}
    {h : TargetHandler} (hid : r.handler? id = some h) (hopen : h.closed = false)
    (hfamily : h.encoder.family = h.factory) (hasks : h.useAnnotations = true)
    {resource : Resource} {rule : Option Rule}
    (hfree : ∀ i, r.owner? h.registry resource.targetName = some i → i = id) :
    (r.handle id resource rule true).encoding id resource.targetName =
      match h.encoder.encode resource.ip resource.kind resource.object rule with
      | .ok config => config
      | .error _ => r.encoding id resource.targetName := by
  have hnobody : ¬(r.owner? h.registry resource.targetName).any (· ≠ id) = true := by
    rw [Option.any_eq_true]
    rintro ⟨i, hi, hne⟩
    exact of_decide_eq_true hne (hfree i hi)
  rw [handle_eq hc hid, if_neg hnobody]
  cases henc : h.encoder.encode resource.ip resource.kind resource.object rule with
  | error fault => rfl
  | ok config =>
    cases config with
    | some config =>
      dsimp only
      rw [renew_eq hid henc]
      by_cases hcur : r.encoding id resource.targetName = some config
      · rw [if_pos hcur, hcur]
      · rw [if_neg hcur, if_pos hfamily, hopen, if_neg Bool.false_ne_true]
        exact (encoding_commit hid resource.targetName config id resource.targetName).trans
          (if_pos ⟨rfl, rfl⟩)
    | none =>
      dsimp only
      rw [hasks, Bool.and_true, Bool.and_true]
      cases hcur : r.encoding id resource.targetName with
      | none => exact hcur
      | some config =>
        rw [Option.isSome_some, if_pos rfl,
          release_eq hid (holds_iff_encoding.mpr ⟨config, hcur⟩)]
        exact (encoding_dismiss r id _ id resource.targetName).trans
          (if_pos ⟨rfl, beq_self_eq_true _⟩)

namespace Discoverer

open Roster

variable {d d' : Discoverer}

/-! ## Taking in a resource that no rule claims -/

/-- After those without a claim have given the target up, only the handler of the targets that ask
    for themselves may hold it. -/
theorem Sound.eq_annotated_of_holds_given (hs : d.Sound) {resource : Resource}
    (hunclaimed : ∀ p ∈ d.pipelines.values, p.filter.isMatch resource = false) {id : HandlerId}
    (hh : (d.performAll ((d.strays resource).map (.delete · resource.targetName))).roster.holds id
      resource.targetName = true) : id = d.annotated := by
  obtain ⟨config, he⟩ := holds_iff_encoding.mp hh
  rw [hs.encoding_performAll_deletes] at he
  split_ifs at he with hgone
  have hheld : d.roster.holds id resource.targetName = true := holds_iff_encoding.mpr ⟨config, he⟩
  refine (mem_installed.mp (hs.mem_installed_of_holds hheld)).resolve_left fun hid => ?_
  obtain ⟨p, hp, rfl⟩ := List.mem_map.mp hid
  exact hgone ⟨(hs.handler_mem_strays hp resource).mpr ⟨hunclaimed p hp, hheld⟩, rfl⟩

/-- What is held for itself of a resource that no rule claims: nothing if the policy forbids it,
    and otherwise its encoding, if it has one, or what was held before, if it is faulty. -/
theorem Sound.encoding_annotated_discover (hs : d.Sound) {annotationPrefix nodeName : String}
    (hencoders : d.encoders = .standard annotationPrefix nodeName) {leading : Bool}
    {resource : Resource} (hkind : resource.kind ≠ .apiServer)
    (hleading : resource.kind.isClusterScoped = true → leading = true)
    (hunclaimed : ∀ p ∈ d.pipelines.values, p.filter.isMatch resource = false) :
    (d.discover leading resource).roster.encoding d.annotated resource.targetName =
      if d.policy.allows resource then
        match (Encoder.prometheus (.ofPrefix annotationPrefix) nodeName).encode resource.ip
          resource.kind resource.object none with
        | .ok config => config
        | .error _ => d.roster.encoding d.annotated resource.targetName
      else none := by
  let given := d.performAll ((d.strays resource).map (.delete · resource.targetName))
  have hgiven : given.Sound := hs.performAll _
  have hsetup : SameSetup d given := d.sameSetup_performAll _
  have hannotated : given.annotated = d.annotated := annotated_performAll d _
  have hnone : (d.claims resource).isEmpty = true := by
    rw [List.isEmpty_iff, claims, List.filter_eq_nil_iff]
    intro p hp
    rw [hunclaimed p hp]
    exact Bool.false_ne_true
  have hdiscover : d.discover leading resource = given.annotate resource := by
    have hin : (resource.kind.isClusterScoped && !leading) = false := by
      cases hk : resource.kind.isClusterScoped with
      | false => rfl
      | true => rw [hleading hk]; rfl
    rw [Discoverer.discover, hin, if_neg Bool.false_ne_true, performAll_calls, if_pos hnone]
  have hbefore : given.roster.encoding d.annotated resource.targetName =
      d.roster.encoding d.annotated resource.targetName := by
    refine (hs.encoding_performAll_deletes _ _ _ _).trans (if_neg ?_)
    rintro ⟨hstray, -⟩
    obtain ⟨p, hp, he⟩ := List.mem_map.mp hstray
    exact hs.handler_ne_annotated (List.mem_filter.mp hp).1 he
  rw [hdiscover, annotate, if_neg hkind, hsetup.policy, hannotated]
  by_cases hallows : d.policy.allows resource = true
  · have hconfirmed : (!d.policy.isExcluded resource) = true :=
      (Bool.and_eq_true_iff.mp hallows).2
    obtain ⟨h, hid, hb⟩ := hgiven.handler?_annotated (hsetup.encoders.trans hencoders)
    rw [hannotated] at hid
    have hfree : ∀ i, given.roster.owner? h.registry resource.targetName = some i →
        i = d.annotated := fun i hi =>
      hs.eq_annotated_of_holds_given hunclaimed ((hgiven.consistent _ _ _).mp hi).2
    have hencoder : h.encoder = .prometheus (.ofPrefix annotationPrefix) nodeName :=
      congrArg TargetHandler.encoder hb
    have hfactory : h.factory = .prometheus := congrArg TargetHandler.factory hb
    rw [if_pos hallows, if_pos hallows, hconfirmed, ← hbefore, ← hencoder]
    exact encoding_handle_confirmed hgiven.consistent hid (congrArg TargetHandler.closed hb)
      (by rw [hencoder, hfactory]; rfl) (congrArg TargetHandler.useAnnotations hb) hfree
  · rw [if_neg hallows, if_neg hallows]
    exact (encoding_delete given.roster d.annotated resource.targetName d.annotated _).trans
      (if_pos ⟨rfl, rfl⟩)

/-- Whatever happened before, taking in a pod or, while the agent leads, a service that no rule
    claims leaves its target with no rule. If nothing may ask for itself, or the resource may not
    by the selectors that were decided last and can be compiled, its target is not held for itself
    either. If it may and asks, exactly its encoding is held, or what was held before where it
    cannot be encoded; and if it does not ask, nothing is held. -/
theorem unclaimed_outcome (settings : Settings) (nodeName : String) (ops : List Operation)
    (leading : Bool) (resource : Resource) (hkind : resource.kind ≠ .apiServer)
    (hleading : resource.kind = .service → leading = true)
    (hunclaimed : ∀ p ∈ ((start settings nodeName).run ops).pipelines.values,
      p.filter.isMatch resource = false) :
    let d := (start settings nodeName).run ops
    let d' := d.discover leading resource
    let keys := AnnotationKeys.ofPrefix settings.effectivePrefix
    let barred := (decided settings ops).2 = true ∨
      ∃ s ∈ (decided settings ops).1, s.Exclude resource
    let held := d'.roster.encoding d'.annotated resource.targetName
    (∀ p ∈ d'.pipelines.values, d'.roster.holds p.handler resource.targetName = false) ∧
    (barred → held = none) ∧
    (¬barred → resource.Asks keys →
      match (Encoder.prometheus keys nodeName).encode resource.ip resource.kind resource.object
        none with
      | .ok config => config ≠ none ∧ held = config
      | .error _ => held = d.roster.encoding d.annotated resource.targetName) ∧
    (¬barred → ¬resource.Asks keys → held = none) := by
  intro d d' keys barred held
  have hs : d.Sound := sound_run settings nodeName ops
  obtain ⟨hencoders, hpolicy⟩ := setup_run settings nodeName ops
  have hcluster : resource.kind.isClusterScoped = true → leading = true := by
    intro hk
    cases hr : resource.kind with
    | pod => rw [hr] at hk; cases hk
    | service => exact hleading hr
    | apiServer => exact absurd hr hkind
  have hheld : held = _ :=
    (congrArg (d'.roster.encoding · resource.targetName)
      (annotated_discover d leading resource)).trans
      (hs.encoding_annotated_discover hencoders hkind hcluster hunclaimed)
  have hallows : d.policy.allows resource = true ↔ ¬barred := by
    rw [show d.policy = _ from hpolicy]
    exact AnnotationPolicy.allows_compile
  refine ⟨fun p hp => ?_, fun hbarred => ?_, fun hfree hasks => ?_, fun hfree hasks => ?_⟩
  · have hp : p ∈ d.pipelines.values := by rwa [← pipelines_discover d leading resource]
    exact hs.not_holds_discover hcluster hp (hunclaimed p hp)
  · rw [hheld, if_neg fun h => hallows.mp h hbarred]
  · rw [hheld, if_pos (hallows.mpr hfree)]
    cases henc : (Encoder.prometheus keys nodeName).encode resource.ip resource.kind
      resource.object none with
    | ok config =>
      refine ⟨?_, rfl⟩
      rintro rfl
      exact Encoder.encode_unclaimed_eq_none_iff.mp henc hasks
    | error fault => rfl
  · rw [hheld, if_pos (hallows.mpr hfree), Encoder.encode_unclaimed_eq_none_iff.mpr hasks]

/-- A rule holds the target of a pod that asks for itself. Of two decisions the one with the faulty
    selectors counts for nothing and the other does not match. When the pod comes back with another
    image, which the rule does not claim, its target is held for itself. -/
theorem asked_after_rule_lost_claim :
    let rule : Rule :=
      { name := "a", pluginType := "prometheus", selectors := { images := ["redis:*"] } }
    let pod : String → Resource := fun image =>
      { kind := .pod, ip := "10.0.0.1"
        object :=
          { name := "x", ns := "ns"
            annotations := KeyMap.ofList [("prometheus.io/scrape", "true")] }
        containers := [{ image, ports := [] }] }
    let ops : List Operation := [.handleAll true [rule], .discover true (pod "redis:6"),
      .setAnnotationPolicy [{ images := ["[a"] }, { images := ["nginx*"] }] false]
    let d := (start {} "node-1").run ops
    let d' := d.discover false (pod "app:1")
    d.targets.map (·.rule) = ["a"] ∧
    (∀ p ∈ d.pipelines.values, p.filter.isMatch (pod "app:1") = false) ∧
    d'.roster.encoding d'.annotated "pod/ns/x" ≠ none ∧
    ∀ p ∈ d'.pipelines.values, d'.roster.holds p.handler "pod/ns/x" = false := by
  intro rule pod ops d d'
  have hunclaimed : ∀ p ∈ d.pipelines.values, p.filter.isMatch (pod "app:1") = false := by
    decide +kernel
  obtain ⟨hrules, -, hasks, -⟩ :=
    unclaimed_outcome {} "node-1" ops false (pod "app:1") nofun nofun hunclaimed
  have hfree : ¬((decided {} ops).2 = true ∨ ∃ s ∈ (decided {} ops).1, s.Exclude (pod "app:1")) :=
    AnnotationPolicy.allows_compile.mp (by decide +kernel)
  have hheld := hasks hfree (by unfold Resource.Asks; decide +kernel)
  refine ⟨by decide +kernel, hunclaimed, ?_, hrules⟩
  split at hheld
  · rw [show "pod/ns/x" = (pod "app:1").targetName from rfl, hheld.2]
    exact hheld.1
  · next henc =>
    have hok : ((Encoder.prometheus (.ofPrefix (Settings.effectivePrefix {})) "node-1").encode
        (pod "app:1").ip (pod "app:1").kind (pod "app:1").object none).toOption ≠ none := by
      decide +kernel
    rw [henc] at hok
    exact absurd rfl hok

end Discoverer

end ScrapeDiscovery

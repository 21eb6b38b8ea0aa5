import ScrapeDiscovery.Agent.Api
import ScrapeDiscovery.Proofs.Discoverer.Separation
import ScrapeDiscovery.Proofs.Discoverer.Sources
import ScrapeDiscovery.Proofs.Scrape.Tags

/-!
# Who a target says it is

A target names its resource in its tags: under the kind the name, and under `namespace` the
namespace if there is one. Whoever asks an agent for the targets of a namespace is
answered by this tag. A rule may have tags under the same keys, and these win. So a target
tells who it is, and is answered for its own namespace and for no other, exactly if the rule
that it was encoded with has no other value under the key.

Results:
* `Encoder.tags_kind_iff`, `Encoder.tags_namespace_iff`: when an encoding tells the name and
  the namespace of its resource.
* `accepts_iff`: a query for a namespace goes by the tag.
* `identity_told_iff`: every encoding, and the targets of every run.
* `exists_identity_lost`: a rule whose tags hide the pods that it claims.
-/

namespace ScrapeDiscovery

/-- The namespace of an object that is in one. -/
def ObjectMeta.ns? (object : ObjectMeta) : Option String :=
  if object.ns = "" then none else some object.ns

/-- Whether a rule gives its targets a tag with another value than a resource has. -/
def Rule.Overrides (rule : Rule) (key value : String) : Prop :=
  ∃ other, rule.tags.get? key = some other ∧ other ≠ "" ∧ other ≠ value

theorem ruleTag_eq_some_iff {rule : Option Rule} {key value : String} (hhash : key ≠ hashLabel)
    (hkey : key ≠ "") :
    ruleTag rule key = some value ↔ ∃ r ∈ rule, r.tags.get? key = some value ∧ value ≠ "" := by
  simp only [ruleTag, Option.bind_eq_some_iff, wantedTag_eq_some_iff, Option.mem_def]
  exact exists_congr fun r => and_congr_right fun _ => and_iff_right ⟨hhash, hkey⟩

/-- A rule overrides nothing under a key if what it asks for there is the value anyway. -/
theorem forall_not_overrides_iff {rule : Option Rule} {key value : String}
    (hhash : key ≠ hashLabel) (hkey : key ≠ "") :
    (∀ r ∈ rule, ¬ r.Overrides key value) ↔ ∀ other ∈ ruleTag rule key, other = value := by
  constructor
  · intro hnone other hother
    obtain ⟨r, hr, hget, hne⟩ := (ruleTag_eq_some_iff hhash hkey).mp hother
    exact not_not.mp fun hdiff => hnone r hr ⟨other, hget, hne, hdiff⟩
  · rintro hall r hr ⟨other, hget, hne, hdiff⟩
    exact hdiff (hall other ((ruleTag_eq_some_iff hhash hkey).mpr ⟨r, hr, hget, hne⟩))

/-! ## Encodings -/

namespace Encoder

variable {e : Encoder} {ip : String} {kind : ResourceKind} {object : ObjectMeta}
  {rule : Option Rule} {config : ScrapeConfig}

theorem tags_kind_iff (h : e.encode ip kind object rule = .ok (some config)) :
    config.tags.get? kind.name = some object.name ↔
      ∀ r ∈ rule, ¬ r.Overrides kind.name object.name := by
  rw [get?_tags_kind h, Option.some_inj,
    forall_not_overrides_iff (by cases kind <;> decide) (by cases kind <;> decide)]
  cases ruleTag rule kind.name <;> simp

theorem tags_namespace_iff (h : e.encode ip kind object rule = .ok (some config)) :
    config.tags.get? "namespace" = object.ns? ↔
      ∀ r ∈ rule, ¬ r.Overrides "namespace" object.ns := by
  rw [get?_tags_namespace h, ← ObjectMeta.ns?,
    forall_not_overrides_iff (by decide) (by decide)]
  cases htag : ruleTag rule "namespace" with
  | none => simp
  | some other =>
    -- an empty value would not have been asked for
    obtain ⟨r, -, -, hne⟩ := (ruleTag_eq_some_iff (by decide) (by decide)).mp htag
    rw [Option.some_or, ObjectMeta.ns?]
    split
    · next hns => simpa [hns] using hne
    · simp

end Encoder

/-! ## Queries -/

/-- Of the targets of a plugin type that is asked for, those are answered for a namespace that have
    it as a tag. -/
theorem TargetQuery.accepts_iff {q : TargetQuery} {t : TargetSummary} {ns : String}
    (htype : q.pluginType.all (· == t.pluginType) = true) (hns : q.ns = some ns) :
    q.accepts t = true ↔ t.config.tags.get? "namespace" = some ns := by
  rw [accepts, htype, hns, Bool.true_and, Option.all_some, beq_iff_eq]

namespace Discoverer

/-- What is shown was encoded from a resource of the run. -/
theorem exists_source_of_mem_targets {settings : Settings} {nodeName : String}
    {ops : List Operation} {t : TargetSummary}
    (ht : t ∈ ((start settings nodeName).run ops).targets) :
    ∃ resource, IsSource ops resource ∧ t.name = resource.targetName ∧
      ∃ (e : Encoder) (rule : Option Rule),
        e.encode resource.ip resource.kind resource.object rule = .ok (some t.config) := by
  have hsourced := sourced_run settings nodeName ops
  rcases mem_targets_iff.mp ht with ⟨p, -, he, -⟩ | ⟨he, -⟩
  · exact hsourced p.handler t.name t.config he
  · exact hsourced _ t.name t.config he

/-- An encoding tells the name and the namespace of its resource exactly if the rule does not
    override them. In every state of a run a target is answered for the namespace of its resource
    and for no other, whatever else is asked for of it, exactly if the rule that it was encoded
    with does not override the namespace. -/
theorem identity_told_iff (settings : Settings) (nodeName : String) (ops : List Operation) :
    (∀ (e : Encoder) (ip : String) (kind : ResourceKind) (object : ObjectMeta)
        (rule : Option Rule) (config : ScrapeConfig),
      e.encode ip kind object rule = .ok (some config) →
        (config.tags.get? kind.name = some object.name ↔
          ∀ r ∈ rule, ¬ r.Overrides kind.name object.name) ∧
        (config.tags.get? "namespace" = object.ns? ↔
          ∀ r ∈ rule, ¬ r.Overrides "namespace" object.ns)) ∧
    let d := (start settings nodeName).run ops
    ∀ t ∈ d.targets, ∃ resource, IsSource ops resource ∧ t.name = resource.targetName ∧
      ∃ (e : Encoder) (rule : Option Rule),
        e.encode resource.ip resource.kind resource.object rule = .ok (some t.config) ∧
        ((∀ q : TargetQuery, q.pluginType.all (· == t.pluginType) = true →
            ∀ ns, q.ns = some ns →
              (t ∈ d.targets.filter q.accepts ↔ resource.object.ns? = some ns)) ↔
          ∀ r ∈ rule, ¬ r.Overrides "namespace" resource.object.ns) := by
  refine ⟨fun e ip kind object rule config henc =>
    ⟨Encoder.tags_kind_iff henc, Encoder.tags_namespace_iff henc⟩, ?_⟩
  intro d t ht
  obtain ⟨resource, hsource, hname, e, rule, henc⟩ := exists_source_of_mem_targets ht
  refine ⟨resource, hsource, hname, e, rule, henc, ?_⟩
  rw [← Encoder.tags_namespace_iff henc]
  have hanswered : ∀ q : TargetQuery, q.pluginType.all (· == t.pluginType) = true →
      ∀ ns, q.ns = some ns → (t ∈ d.targets.filter q.accepts ↔
        t.config.tags.get? "namespace" = some ns) := fun q htype ns hns =>
    List.mem_filter.trans ((and_iff_right ht).trans (TargetQuery.accepts_iff htype hns))
  constructor
  · intro hall
    refine Option.ext fun ns => ?_
    rw [← hanswered { ns := some ns } rfl ns rfl, hall { ns := some ns } rfl ns rfl]
  · intro htag q htype ns hns
    rw [hanswered q htype ns hns, htag]

/-- A rule that names the team of a pod leaves its name and its namespace alone. -/
theorem identity_told_beside_team :
    let rule := { redisRule "a" "prometheus" with tags := KeyMap.ofList [("team", "core")] }
    let ops : List Operation := [.handleAll true [rule], .discover true redisPod]
    let d := (start {} "node-1").run ops
    (∃ config, (Encoder.prometheus (.ofPrefix "") "node-1").encode redisPod.ip redisPod.kind
        redisPod.object (some rule) = .ok (some config) ∧
      config.tags.get? "pod" = some "x" ∧ config.tags.get? "namespace" = some "ns") ∧
    ∃ t ∈ d.targets, t.name = "pod/ns/x" ∧
      ∃ resource, IsSource ops resource ∧ t.name = resource.targetName := by
  intro rule ops d
  have hkept : ∀ key value, rule.tags.get? key = none →
      ∀ r ∈ some rule, ¬ r.Overrides key value := by
    rintro key value hnone r hr ⟨other, hget, -⟩
    obtain rfl := Option.some.inj hr
    exact nomatch hnone.symm.trans hget
  obtain ⟨hidentity, htargets⟩ := identity_told_iff {} "node-1" ops
  constructor
  · have hencodes : ∃ config, (Encoder.prometheus (.ofPrefix "") "node-1").encode redisPod.ip
        redisPod.kind redisPod.object (some { redisRule "a" "prometheus" with
          tags := KeyMap.ofList [("team", "core")] }) = .ok (some config) := ⟨_, rfl⟩
    obtain ⟨config, henc⟩ := hencodes
    obtain ⟨hname, hns⟩ := hidentity _ _ _ _ _ _ henc
    exact ⟨config, henc, hname.mpr (hkept _ _ (by decide)), hns.mpr (hkept _ _ (by decide))⟩
  · have hheld : d.targets.map (·.name) = ["pod/ns/x"] := by decide +kernel
    obtain ⟨t, ht, hname⟩ := List.mem_map.mp (hheld ▸ List.mem_singleton_self "pod/ns/x")
    obtain ⟨resource, hsource, htarget, -⟩ := htargets t ht
    exact ⟨t, ht, hname, resource, hsource, htarget⟩

/-- A rule with tags for a name and a namespace claims a pod. The target is tagged with these, is
    not answered for the namespace of the pod, and is answered for another one. -/
theorem exists_identity_lost :
    let rule := { redisRule "a" "prometheus" with
      tags := KeyMap.ofList [("namespace", "other"), ("pod", "y")] }
    let d := (start {} "node-1").run [.handleAll true [rule], .discover true redisPod]
    let answered := fun ns => (d.targets.filter ({ ns := some ns } : TargetQuery).accepts).map
      fun t => (t.name, t.config.tags.toList)
    (redisPod.object.name = "x" ∧ redisPod.object.ns = "ns") ∧ answered "ns" = [] ∧
      answered "other" = [("pod/ns/x", [("namespace", "other"), ("pod", "y")])] := by
  decide +kernel

end Discoverer

end ScrapeDiscovery

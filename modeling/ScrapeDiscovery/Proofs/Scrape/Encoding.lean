import Mathlib.Tactic.Common
import ScrapeDiscovery.Proofs.Steps
import ScrapeDiscovery.Provider
import ScrapeDiscovery.Scrape.Encoder

/-!
# What every encoding has in common

Whatever the rule and the resource, an encoding is named after the target of the
resource, belongs to the family of its encoder, and lacks nothing that the
factory of that family asks for.

Results:
* `setting_of_plain`, `setting_none`: a setting without an annotation.
* `encodePrometheus_eq_ok`, `encodeTelegraf_eq_some`: what is in an encoding.
* `encode_eq_none_iff`: which resources are no targets.
* `encode_spec`: these three facts for every encoder.
* `encode_origin`: whether a rule was given can be told from the encoding.
* `build_of_encode`: a provider can be built from every encoding of the factory's family.
* `EncoderTable.get?_standard_encoders`: the encoders that are always there.
-/

namespace ScrapeDiscovery

/-- The family of the configurations that an encoder makes. -/
def Encoder.family : Encoder → Family
  | .prometheus .. => .prometheus
  | .telegraf _ => .telegraf

/-! ## Settings -/

theorem setting_of_plain {object : ObjectMeta} {key : String}
    (h : (object.annotations.get? key).getD "" = "") (ruleValue default : String) :
    setting object (some key) ruleValue default =
      if ruleValue = "" then default else ruleValue := by
  have hplain : ((some key).bind object.annotations.get?).getD "" = "" := h
  simp only [setting, hplain, ne_eq, not_true_eq_false, if_false, ite_not]

theorem setting_none (object : ObjectMeta) (ruleValue default : String) :
    setting object none ruleValue default = if ruleValue = "" then default else ruleValue := by
  simp only [setting, Option.bind_none, Option.getD_none, ne_eq, not_true_eq_false, if_false,
    ite_not]

/-! ## Encodings -/

namespace Encoder

theorem url_ne_empty (scheme rest : String) : scheme ++ "://" ++ rest ≠ "" := by
  intro h
  have hlen := congrArg String.length h
  simp only [String.length_append] at hlen
  have : "://".length = 3 := rfl
  have : "".length = 0 := rfl
  omega

/-- Whether a resource is to be a target: it has a rule, or asks for it itself. -/
def isAsked (e : Encoder) (object : ObjectMeta) (rule : Option Rule) : Bool :=
  match e with
  | .prometheus keys _ => rule.isSome || setting object (some keys.scrape) "" "false" = "true"
  | .telegraf _ => rule.isSome

theorem not_isAsked_prometheus {object : ObjectMeta} {rule : Option Rule} (keys : AnnotationKeys)
    (nodeName : String) :
    (rule.isNone && setting object (some keys.scrape) "" "false" ≠ "true") =
      !(prometheus keys nodeName).isAsked object rule := by
  cases rule <;> simp [isAsked]

/-- What is not asked for and what has no address is no target, and nothing else is left out. -/
theorem encode_eq_none_iff {e : Encoder} {ip : String} {kind : ResourceKind} {object : ObjectMeta}
    {rule : Option Rule} :
    e.encode ip kind object rule = .ok none ↔
      hasAddress ip = false ∨ e.isAsked object rule = false := by
  cases e with
  | prometheus keys nodeName =>
    rw [encode, encodePrometheus, not_isAsked_prometheus keys nodeName]
    cases haddress : hasAddress ip with
    | false => exact iff_of_true rfl (Or.inl rfl)
    | true =>
      cases hasked : (prometheus keys nodeName).isAsked object rule with
      | false => exact iff_of_true rfl (Or.inr rfl)
      | true =>
        refine iff_of_false (fun h => ?_) (by decide)
        obtain ⟨interval, -, h⟩ := bind_eq_ok_iff.mp h
        obtain ⟨timeout, -, h⟩ := bind_eq_ok_iff.mp h
        obtain ⟨client, -, h⟩ := bind_eq_ok_iff.mp h
        cases h
  | telegraf defaults =>
    rw [encode, encodeTelegraf]
    cases rule <;> simp [isAsked]

/-- What is in a prometheus configuration, of what depends on the resource and the rule alone. -/
theorem encodePrometheus_eq_ok {keys : AnnotationKeys} {nodeName ip : String}
    {kind : ResourceKind} {object : ObjectMeta} {rule : Option Rule} {config : ScrapeConfig}
    (h : encodePrometheus keys nodeName ip kind object rule = .ok (some config)) :
    let r := rule.getD { name := "", pluginType := "" }
    let port := targetPort object (setting object (some (keys.key "port")) r.port "")
    ∃ c, config = .prometheus c ∧ c.name = targetName kind object ∧
      c.url = setting object (some (keys.key "scheme")) r.scheme "http" ++ "://" ++ ip ++
        (if port = "" then "" else ":" ++ port) ++
          setting object (some (keys.key "path")) r.path "/metrics" ∧
      c.origin = (if rule.isSome then .rule else .annotated) ∧
      c.tags = targetTags kind object r.tags
        (setting object (some (keys.key "includeLabels")) r.includeLabels "true" = "true") := by
  unfold encodePrometheus at h
  split at h
  · cases h
  split at h
  · cases h
  obtain ⟨interval, -, h⟩ := bind_eq_ok_iff.mp h
  obtain ⟨timeout, -, h⟩ := bind_eq_ok_iff.mp h
  obtain ⟨client, -, h⟩ := bind_eq_ok_iff.mp h
  cases h
  exact ⟨_, rfl, rfl, rfl, rfl, rfl⟩

/-- What is in a telegraf configuration, of what depends on the resource and the rule alone. -/
theorem encodeTelegraf_eq_some {defaults : TelegrafDefaults} {ip : String} {kind : ResourceKind}
    {object : ObjectMeta} {rule : Option Rule} {config : ScrapeConfig}
    (h : encodeTelegraf defaults ip kind object rule = some config) :
    ∃ r c, rule = some r ∧ config = .telegraf c ∧ c.name = targetName kind object ∧
      c.plugins = [telegrafPlugin r.pluginType] ∧
      c.conf = fillTemplate (setting object none (Text.trimText r.conf) defaults.conf)
        (setting object none r.scheme defaults.scheme) ip
          (setting object none r.port defaults.port) ∧
      c.origin = .rule ∧
      c.tags = targetTags kind object r.tags
        (setting object (some telegrafLabelsAnnotation) r.includeLabels "true" = "true") := by
  unfold encodeTelegraf at h
  split at h
  · cases h
  obtain ⟨r, rfl, rfl⟩ := Option.map_eq_some_iff.mp h
  exact ⟨r, _, rfl, rfl, rfl, rfl, rfl, rfl, rfl⟩

theorem encodePrometheus_spec {keys : AnnotationKeys} {nodeName ip : String} {kind : ResourceKind}
    {object : ObjectMeta} {rule : Option Rule} {config : ScrapeConfig}
    (h : encodePrometheus keys nodeName ip kind object rule = .ok (some config)) :
    config.name = targetName kind object ∧ config.family = .prometheus ∧
      Provider.missing? config = none := by
  obtain ⟨c, rfl, hname, hurl, -⟩ := encodePrometheus_eq_ok h
  refine ⟨hname, rfl, if_neg ?_⟩
  rw [hurl, String.append_assoc, String.append_assoc]
  exact url_ne_empty _ _

theorem encodeTelegraf_spec {defaults : TelegrafDefaults} {ip : String} {kind : ResourceKind}
    {object : ObjectMeta} {rule : Option Rule} {config : ScrapeConfig}
    (h : encodeTelegraf defaults ip kind object rule = some config) :
    config.name = targetName kind object ∧ config.family = .telegraf ∧
      Provider.missing? config = none := by
  obtain ⟨r, c, -, rfl, hname, hplugins, -⟩ := encodeTelegraf_eq_some h
  refine ⟨hname, rfl, ?_⟩
  rw [Provider.missing?, hplugins]
  rfl

/-- An encoding is named after the target, belongs to the family of the encoder and is
    complete. -/
theorem encode_spec {e : Encoder} {ip : String} {kind : ResourceKind} {object : ObjectMeta}
    {rule : Option Rule} {config : ScrapeConfig}
    (h : e.encode ip kind object rule = .ok (some config)) :
    config.name = targetName kind object ∧ config.family = e.family ∧
      Provider.missing? config = none := by
  cases e with
  | prometheus keys nodeName => exact encodePrometheus_spec h
  | telegraf defaults => exact encodeTelegraf_spec (Except.ok.inj h)

/-- What a rule claims is encoded as discovered by a rule, and nothing else is. -/
theorem encode_origin {e : Encoder} {ip : String} {kind : ResourceKind} {object : ObjectMeta}
    {rule : Option Rule} {config : ScrapeConfig}
    (h : e.encode ip kind object rule = .ok (some config)) :
    config.origin = if rule.isSome then .rule else .annotated := by
  cases e with
  | prometheus keys nodeName =>
    obtain ⟨c, rfl, -, -, horigin, -⟩ := encodePrometheus_eq_ok h
    exact horigin
  | telegraf defaults =>
    obtain ⟨r, c, rfl, rfl, -, -, -, horigin, -⟩ := encodeTelegraf_eq_some (Except.ok.inj h)
    exact horigin

/-- A factory builds a provider from every encoding of its own family, and from no other. -/
theorem build_of_encode {e : Encoder} {resource : Resource} {rule : Option Rule}
    {config : ScrapeConfig} (factory : Family)
    (h : e.encode resource.ip resource.kind resource.object rule = .ok (some config)) :
    Provider.build factory config =
      if e.family = factory then
        .ok ⟨providerName factory.factoryName resource.targetName, config⟩
      else .error (.unbuildable resource.targetName (.foreign factory.factoryName)) := by
  obtain ⟨hname, hfamily, hcomplete⟩ := encode_spec h
  rw [Provider.build, hfamily, hcomplete, hname]
  rfl

end Encoder

/-- The plugin types that have an encoder of their own. -/
theorem EncoderTable.get?_standard_encoders (annotationPrefix nodeName pluginType : String) :
    (standard annotationPrefix nodeName).encoders.get? pluginType =
      if pluginType = "telegraf/memcached" then some (.telegraf .memcached)
      else if pluginType = "telegraf/redis" then some (.telegraf .redis)
      else if pluginType = "prometheus" then
        some (.prometheus (.ofPrefix annotationPrefix) nodeName)
      else none := by
  simp only [standard, KeyMap.ofList, List.foldl, KeyMap.get?_insert]
  rfl

end ScrapeDiscovery

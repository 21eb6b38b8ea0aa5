import ScrapeDiscovery.Proofs.Cluster.Objects
import ScrapeDiscovery.Proofs.Scrape.Consulted
import ScrapeDiscovery.Proofs.Scrape.Tags
import ScrapeDiscovery.Proofs.Text.Places

/-!
# Switches and their spellings

Some annotations are switches: whether a resource asks to be scraped, whether its labels
become tags, and whether certificates go unchecked. A truth value has six spellings, and the
last switch takes them all. The other two are compared with `true` as it stands, so `True` or
`1` turns them off. This tells two spellings of one value apart for the switch that asks, on
resources without a rule, and for the one for labels, on encodings to which a label adds a
tag, and nowhere else.

Results:
* `AnnotationKeys.key_inj`: a key tells its prefix and its setting.
* `Encoder.encode_annotate`: for a resource that is asked for as before, a switch that is spelled
  anew bears on nothing but the tags.
* `Encoder.not_hingesOn_insecureSkipVerify`: what is parsed decides nothing by its spelling.
* `Encoder.encode_respelled_iff`: when another spelling of a value changes nothing.
* `Encoder.exists_respelled_ne`: two pods with `True` in place of `true`.
-/

namespace ScrapeDiscovery

/-! ## Switches -/

/-- The settings that are switches. -/
def switches : List String := ["scrape", "includeLabels", "insecureSkipVerify"]

/-- Whether an annotation is a switch, with any prefix. -/
def IsSwitch (key : String) : Prop :=
  ∃ keys : AnnotationKeys, ∃ part ∈ switches, key = keys.key part

/-- Texts with a slash are told apart by what follows the last one and by what comes before it. -/
theorem append_slash_inj {a b s t : List Char} (hs : '/' ∉ s) (ht : '/' ∉ t) :
    a ++ '/' :: s = b ++ '/' :: t ↔ a = b ∧ s = t := by
  -- read backwards, they are told apart by what comes before the first one
  rw [← List.reverse_inj]
  simp only [List.reverse_append, List.reverse_cons, List.append_assoc, List.singleton_append]
  rw [Text.append_cons_inj (mt List.mem_reverse.mp hs) (mt List.mem_reverse.mp ht),
    List.reverse_inj, List.reverse_inj, and_comm]

/-- A key tells its prefix and its setting, since no setting has a slash. -/
theorem AnnotationKeys.key_inj {keys keys' : AnnotationKeys} {part part' : String}
    (hpart : '/' ∉ part.toList) (hpart' : '/' ∉ part'.toList) :
    keys.key part = keys'.key part' ↔ keys = keys' ∧ part = part' := by
  rw [key, key, ← String.toList_inj, toList_append_slash, toList_append_slash,
    append_slash_inj hpart hpart', String.toList_inj, String.toList_inj, AnnotationKeys.mk.injEq]

/-- No other setting has the key of a switch, whatever the prefixes are. -/
theorem IsSwitch.key_ne {key : String} (hkey : IsSwitch key) (keys : AnnotationKeys)
    {part : String} (hplain : '/' ∉ part.toList) (hpart : part ∉ switches) :
    keys.key part ≠ key := by
  obtain ⟨keys', name, hname, rfl⟩ := hkey
  have hslash : ∀ name ∈ switches, '/' ∉ name.toList := by decide
  intro h
  obtain ⟨-, rfl⟩ := (AnnotationKeys.key_inj hplain (hslash name hname)).mp h
  exact hpart hname

/-- The prefix of the annotations of telegraf inputs. -/
def AnnotationKeys.telegraf : AnnotationKeys := ⟨"wavefront.com"⟩

theorem telegrafPrefixAnnotation_eq :
    telegrafPrefixAnnotation = AnnotationKeys.telegraf.key "prefix" := by
  decide

theorem telegrafLabelsAnnotation_eq :
    telegrafLabelsAnnotation = AnnotationKeys.telegraf.key "includeLabels" := by
  decide

/-! ## Annotating -/

/-- Sets an annotation of an object. -/
def ObjectMeta.annotate (object : ObjectMeta) (key value : String) : ObjectMeta :=
  { object with annotations := object.annotations.insert key value }

section Settings

variable {object : ObjectMeta} {key v : String}

theorem setting_of_get? (h : object.annotations.get? key = some v) (hv : v ≠ "")
    (ruleValue default : String) : setting object (some key) ruleValue default = v := by
  simp [setting, h, hv]

theorem setting_annotate_self (hv : v ≠ "") (ruleValue default : String) :
    setting (object.annotate key v) (some key) ruleValue default = v :=
  setting_of_get? (KeyMap.get?_insert_self _ _ _) hv ruleValue default

theorem setting_annotate_of_ne {source : String} (h : source ≠ key) (ruleValue default : String) :
    setting (object.annotate key v) (some source) ruleValue default =
      setting object (some source) ruleValue default :=
  setting_exchange (KeyMap.get?_insert_of_ne h) ruleValue default

/-- A setting that is no switch is left alone by a switch. -/
theorem setting_annotate_of_plain (hkey : IsSwitch key) {keys : AnnotationKeys} {part : String}
    (hplain : '/' ∉ part.toList) (hpart : part ∉ switches) (ruleValue default : String) :
    setting (object.annotate key v) (some (keys.key part)) ruleValue default =
      setting object (some (keys.key part)) ruleValue default :=
  setting_annotate_of_ne (hkey.key_ne keys hplain hpart) ruleValue default

/-- Another spelling for the value of a switch that an object has. -/
structure Respelling (object : ObjectMeta) (key v v' : String) : Prop where
  switch : IsSwitch key
  present : object.annotations.get? key = some v
  isValue : (parseBool? v).isSome = true
  sameValue : parseBool? v' = parseBool? v

namespace Respelling

variable {v' : String} (h : Respelling object key v v') (source ruleValue default : String)
include h

theorem setting_old : setting object (some key) ruleValue default = v := by
  refine setting_of_get? h.present ?_ ruleValue default
  rintro rfl
  exact nomatch h.isValue

theorem setting_new : setting (object.annotate key v') (some key) ruleValue default = v' := by
  refine setting_annotate_self ?_ ruleValue default
  rintro rfl
  exact nomatch h.sameValue ▸ h.isValue

/-- Where a setting is parsed the spelling of a switch does not matter. -/
theorem parseBool?_setting :
    parseBool? (setting (object.annotate key v') (some source) ruleValue default) =
      parseBool? (setting object (some source) ruleValue default) := by
  by_cases hsource : source = key
  · rw [hsource, h.setting_old, h.setting_new, h.sameValue]
  · rw [setting_annotate_of_ne hsource]

/-- Where a setting is compared with `true`, the comparison comes out as before if the switch is
    not what is compared or is `true` just as before. -/
theorem setting_eq_true_iff :
    (setting (object.annotate key v') (some source) ruleValue default = "true" ↔
        setting object (some source) ruleValue default = "true") ↔
      (source = key → (v' = "true" ↔ v = "true")) := by
  by_cases hsource : source = key
  · rw [hsource, h.setting_old, h.setting_new, forall_prop_of_true rfl]
  · rw [setting_annotate_of_ne hsource]
    exact iff_of_true Iff.rfl fun heq => absurd heq hsource

end Respelling

end Settings

/-! ## What a switch bears on -/

/-- Exchanges the tags of a configuration. -/
def ScrapeConfig.withTags (config : ScrapeConfig) (tags : KeyMap String) : ScrapeConfig :=
  match config with
  | .prometheus c => .prometheus { c with tags }
  | .telegraf c => .telegraf { c with tags }

@[simp] theorem ScrapeConfig.withTags_tags (config : ScrapeConfig) :
    config.withTags config.tags = config := by
  cases config <;> rfl

namespace Encoder

variable {e : Encoder} {ip : String} {kind : ResourceKind} {object : ObjectMeta}
  {rule : Option Rule} {key v v' : String}

theorem targetDuration_annotate (hkey : IsSwitch key) (keys : AnnotationKeys)
    (what : DurationSetting) {part : String} (hplain : '/' ∉ part.toList) (hpart : part ∉ switches)
    (ruleValue : Option Duration) :
    targetDuration keys kind (object.annotate key v') what part ruleValue =
      targetDuration keys kind object what part ruleValue := by
  rw [targetDuration, setting_annotate_of_plain hkey hplain hpart]
  rfl

theorem targetHttpClient_annotate (h : Respelling object key v v') (keys : AnnotationKeys)
    (r : Rule) :
    targetHttpClient keys kind (object.annotate key v') r =
      targetHttpClient keys kind object r := by
  simp (disch := decide) only [targetHttpClient, h.parseBool?_setting,
    setting_annotate_of_plain h.switch]
  rfl

/-- For a resource that is asked for as before, a switch that is spelled anew bears on nothing but
    the tags. -/
theorem encode_annotate (h : Respelling object key v v')
    (hasked : e.isAsked (object.annotate key v') rule = e.isAsked object rule) :
    e.encode ip kind (object.annotate key v') rule =
      (e.encode ip kind object rule).map (Option.map (·.withTags (targetTags kind object
        (ruleTags rule) (e.takesLabels (object.annotate key v') rule)))) := by
  cases e with
  | prometheus keys nodeName =>
    simp (disch := decide) only [encode, encodePrometheus, not_isAsked_prometheus keys nodeName,
      hasked, targetDuration_annotate h.switch, targetHttpClient_annotate h,
      setting_annotate_of_plain h.switch]
    split
    · rfl
    split
    · rfl
    -- the steps that may fail are the same
    generalize targetDuration keys kind object .interval _ _ = interval
    generalize targetDuration keys kind object .timeout _ _ = timeout
    generalize targetHttpClient keys kind object _ = client
    rcases interval with fault | interval
    · rfl
    rcases timeout with fault | timeout
    · rfl
    rcases client with fault | client
    · rfl
    · cases rule <;> rfl
  | telegraf defaults =>
    have hsame : ∀ ruleValue, setting (object.annotate key v') (some telegrafPrefixAnnotation)
        ruleValue "" = setting object (some telegrafPrefixAnnotation) ruleValue "" := by
      intro ruleValue
      rw [telegrafPrefixAnnotation_eq, setting_annotate_of_plain h.switch (by decide) (by decide)]
    cases rule with
    | none => simp [encode, encodeTelegraf, Except.map]
    | some r =>
      simp only [encode, encodeTelegraf, hsame]
      split <;> rfl

/-- Another spelling changes nothing exactly if the resource is asked for as before, as far as it
    can be a target, and its target has the tags that it had. -/
theorem encode_annotate_eq_iff (h : Respelling object key v v') :
    e.encode ip kind (object.annotate key v') rule = e.encode ip kind object rule ↔
      (hasAddress ip = true → e.isAsked (object.annotate key v') rule = e.isAsked object rule) ∧
      ∀ config, e.encode ip kind object rule = .ok (some config) →
        targetTags kind object (ruleTags rule) (e.takesLabels (object.annotate key v') rule) =
          targetTags kind object (ruleTags rule) (e.takesLabels object rule) := by
  cases haddress : hasAddress ip with
  | false =>
    rw [encode_of_not_hasAddress haddress, encode_of_not_hasAddress haddress]
    exact iff_of_true rfl ⟨nofun, nofun⟩
  | true =>
    constructor
    · intro heq
      refine ⟨fun _ => ?_, fun config hconfig => ?_⟩
      · have hnone : e.isAsked (object.annotate key v') rule = false ↔
            e.isAsked object rule = false := by
          simpa [encode_eq_none_iff, haddress] using congrArg (· = .ok none) heq
        exact Bool.eq_iff_iff.mpr (by simpa using not_congr hnone)
      · exact (tags_of_encode (heq.trans hconfig)).symm.trans (tags_of_encode hconfig)
    · rintro ⟨hasked, htags⟩
      rw [encode_annotate h (hasked rfl)]
      cases hencode : e.encode ip kind object rule with
      | error fault => rfl
      | ok target =>
        cases target with
        | none => rfl
        | some config =>
          rw [htags config hencode, ← tags_of_encode hencode]
          simp [Except.map]

theorem takesLabels_annotate_iff (h : Respelling object key v v') :
    e.takesLabels (object.annotate key v') rule = e.takesLabels object rule ↔
      (e.labelsKey = key → (v' = "true" ↔ v = "true")) := by
  rw [takesLabels, takesLabels, decide_eq_decide, h.setting_eq_true_iff]

theorem isAsked_annotate_iff (h : Respelling object key v v') :
    e.isAsked (object.annotate key v') rule = e.isAsked object rule ↔
      ∀ keys nodeName, e = .prometheus keys nodeName → rule = none → keys.scrape = key →
        (v' = "true" ↔ v = "true") := by
  cases e with
  | prometheus keys nodeName =>
    cases rule with
    | none =>
      simp only [isAsked, Option.isSome_none, Bool.false_or, decide_eq_decide,
        h.setting_eq_true_iff]
      exact ⟨fun hs _ _ heq _ => (prometheus.inj heq).1 ▸ hs,
        fun hs => hs keys nodeName rfl trivial⟩
    | some r => simp [isAsked]
  | telegraf defaults => simp [isAsked]

/-- An encoding hinges on an annotation if its being `true` and nothing else decides: whether an
    unclaimed resource is a target at all, or whether a label becomes a tag that the rule does not
    have already. -/
inductive HingesOn (e : Encoder) (ip : String) (kind : ResourceKind) (object : ObjectMeta)
    (rule : Option Rule) : String → Prop
  | scrape {keys : AnnotationKeys} {nodeName : String} (encoder : e = .prometheus keys nodeName)
      (address : hasAddress ip = true) (unclaimed : rule = none) :
      HingesOn e ip kind object rule keys.scrape
  | labels {config : ScrapeConfig} {label value : String}
      (encoded : e.encode ip kind object rule = .ok (some config))
      (wanted : wantedTag object.labels label = some value)
      (added : ruleTag rule ("label." ++ label) ≠ some value) :
      HingesOn e ip kind object rule e.labelsKey

theorem exists_labelsKey_eq (e : Encoder) :
    ∃ keys : AnnotationKeys, e.labelsKey = keys.key "includeLabels" := by
  cases e with
  | prometheus keys nodeName => exact ⟨keys, rfl⟩
  | telegraf defaults => exact ⟨.telegraf, telegrafLabelsAnnotation_eq⟩

/-- No encoding hinges on what is parsed, such as the check of certificates. -/
theorem not_hingesOn_insecureSkipVerify (keys : AnnotationKeys) :
    ¬e.HingesOn ip kind object rule (keys.key "insecureSkipVerify") := by
  intro h
  generalize hkey : keys.key "insecureSkipVerify" = key at h
  cases h with
  | scrape =>
    exact absurd ((AnnotationKeys.key_inj (by decide) (by decide)).mp hkey).2 (by decide)
  | labels =>
    obtain ⟨keys', hlabels⟩ := e.exists_labelsKey_eq
    rw [hlabels] at hkey
    exact absurd ((AnnotationKeys.key_inj (by decide) (by decide)).mp hkey).2 (by decide)

/-- Give a switch of a resource another spelling of its value. No encoding changes, with or without
    a rule, if both spellings are `true` or neither is, so for no spelling of `false`. If just one
    of them is, the encoding changes exactly if it hinges on the switch. -/
theorem encode_respelled_iff (h : Respelling object key v v') :
    e.encode ip kind (object.annotate key v') rule = e.encode ip kind object rule ↔
      ((v' = "true" ↔ v = "true") ∨ ¬e.HingesOn ip kind object rule key) := by
  rw [encode_annotate_eq_iff h, isAsked_annotate_iff h]
  by_cases hsame : v' = "true" ↔ v = "true"
  · refine iff_of_true ⟨fun _ _ _ _ _ _ => hsame, fun _ _ => ?_⟩ (Or.inl hsame)
    rw [(takesLabels_annotate_iff h).mpr fun _ => hsame]
  · rw [or_iff_right hsame]
    constructor
    · rintro ⟨hasked, htags⟩ hhinges
      cases hhinges with
      | scrape encoder address unclaimed =>
        exact hsame (hasked address _ _ encoder unclaimed rfl)
      | labels encoded wanted added =>
        rcases targetTags_eq_iff.mp (htags _ encoded) with htakes | hnone
        · exact hsame ((takesLabels_annotate_iff h).mp htakes rfl)
        · exact hnone ⟨_, _, wanted, (wantedTag_ruleTags rule _).trans_ne added⟩
    · intro hnot
      refine ⟨fun address keys nodeName encoder unclaimed hscrape => ?_, fun config encoded => ?_⟩
      · exact absurd (hscrape ▸ .scrape encoder address unclaimed) hnot
      · refine targetTags_eq_iff.mpr (or_iff_not_imp_right.mpr fun hadded => ?_)
        obtain ⟨label, value, wanted, added⟩ := of_not_not hadded
        refine (takesLabels_annotate_iff h).mpr fun hlabels => absurd ?_ hnot
        exact hlabels ▸ .labels encoded wanted ((wantedTag_ruleTags rule _).symm.trans_ne added)

/-- A pod with a label and with one annotation. -/
def webPod (key value : String) : ObjectMeta :=
  { name := "p", ns := "d", labels := .ofList [("app", "web")]
    annotations := .ofList [(key, value)] }

/-- The switch of telegraf inputs for labels: `1` does for `TRUE`, but `True` does not for `true`.
    For the check of certificates of a prometheus target it does. -/
theorem encode_respelled_telegraf :
    let key := telegrafLabelsAnnotation
    let rule : Rule := { name := "r", pluginType := "telegraf/redis" }
    let encode (pod : ObjectMeta) := (telegraf .redis).encode "10.0.0.1" .pod pod (some rule)
    let check := (AnnotationKeys.ofPrefix "").key "insecureSkipVerify"
    let encode' (pod : ObjectMeta) :=
      (prometheus (.ofPrefix "") "node-1").encode "10.0.0.1" .pod pod (some rule)
    (Respelling (webPod key "TRUE") key "TRUE" "1" ∧
      encode ((webPod key "TRUE").annotate key "1") = encode (webPod key "TRUE")) ∧
    (Respelling (webPod key "true") key "true" "True" ∧
      encode ((webPod key "true").annotate key "True") ≠ encode (webPod key "true")) ∧
    (Respelling (webPod check "true") check "true" "True" ∧
      encode' ((webPod check "true").annotate check "True") = encode' (webPod check "true")) := by
  intro key rule encode check encode'
  have hkey : IsSwitch key := ⟨.telegraf, _, by decide, telegrafLabelsAnnotation_eq⟩
  have hcheck : IsSwitch check := ⟨.ofPrefix "", "insecureSkipVerify", by decide, rfl⟩
  have hnumber : Respelling (webPod key "TRUE") key "TRUE" "1" :=
    ⟨hkey, by decide +kernel, rfl, rfl⟩
  have hcapital : Respelling (webPod key "true") key "true" "True" :=
    ⟨hkey, by decide +kernel, rfl, rfl⟩
  have hparsed : Respelling (webPod check "true") check "true" "True" :=
    ⟨hcheck, by decide +kernel, rfl, rfl⟩
  refine ⟨⟨hnumber, ?_⟩, ⟨hcapital, fun h => ?_⟩, ⟨hparsed, ?_⟩⟩
  · exact (encode_respelled_iff hnumber).mpr (Or.inl (by decide))
  · have hwanted : wantedTag (webPod key "true").labels "app" = some "web" := by decide +kernel
    have hadded : ruleTag (some rule) ("label." ++ "app") ≠ some "web" := by decide +kernel
    exact ((encode_respelled_iff hcapital).mp h).resolve_left (by decide)
      (.labels rfl hwanted hadded)
  · exact (encode_respelled_iff hparsed).mpr (Or.inr (not_hingesOn_insecureSkipVerify _))

/-- A rule claims a pod that wants its labels as tags, and another pod asks to be scraped. With
    `True` in place of `true` the one is a target without its label and the other none. -/
theorem exists_respelled_ne :
    let e := prometheus (.ofPrefix "") "node-1"
    let rule : Rule := { name := "r", pluginType := "prometheus" }
    let claimed (value : String) := e.encode "10.0.0.1" .pod
      (webPod "prometheus.io/includeLabels" value) (some rule)
    let asking (value : String) := e.encode "10.0.0.1" .pod
      (webPod "prometheus.io/scrape" value) none
    let label (config : ScrapeConfig) := config.tags.get? "label.app"
    parseBool? "True" = parseBool? "true" ∧
      claimed "True" ≠ claimed "true" ∧
      (claimed "true").map (Option.map label) = .ok (some (some "web")) ∧
      (claimed "True").map (Option.map label) = .ok (some none) ∧
      asking "True" ≠ asking "true" ∧ asking "True" = .ok none := by
  decide +kernel

end Encoder

end ScrapeDiscovery

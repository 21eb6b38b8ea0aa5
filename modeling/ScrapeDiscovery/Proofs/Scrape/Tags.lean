import ScrapeDiscovery.Proofs.Scrape.Encoding

/-!
# The tags of a target

The tags of a target come from three places: what identifies the resource, the tags of
the rule, and the labels of the resource. Labels are put under keys of their own, so they
meet neither of the others. The tags of a rule are put in as they are, after those that
identify the resource, and replace them where the keys are the same.

Results:
* `get?_addTags`, `get?_addTags_of_foreign`: what is found after tags were added.
* `get?_targetTags`: the tags of a target outside of the keys of labels.
* `targetTags_ne_iff`: when the labels of a resource add to its tags.
* `Encoder.tags_of_encode`: the tags of every encoding.
* `Encoder.get?_tags_kind`, `Encoder.get?_tags_namespace`: what every encoding says of the
  identity of its resource.
-/

namespace ScrapeDiscovery

/-! ## Adding tags -/

/-- The tag that a map asks for under a key: neither the key nor the value may be empty, and the
    hash of a roll-out is none. -/
def wantedTag (more : KeyMap String) (key : String) : Option String :=
  if key = hashLabel ∨ key = "" then none else (more.get? key).filter (· ≠ "")

theorem wantedTag_eq_some_iff {more : KeyMap String} {key value : String} :
    wantedTag more key = some value ↔
      (key ≠ hashLabel ∧ key ≠ "") ∧ more.get? key = some value ∧ value ≠ "" := by
  rw [wantedTag]
  split_ifs with hkey
  · exact iff_of_false nofun fun h => hkey.elim h.1.1 h.1.2
  · rw [Option.filter_eq_some_iff, decide_eq_true_iff]
    exact (and_iff_right (not_or.mp hkey)).symm

theorem addTags_entries (keyPrefix : String) {es : List (String × String)}
    (hes : (es.map (·.1)).Nodup) (tags : KeyMap String) (key : String) :
    (es.foldl
        (fun (tags : KeyMap String) (e : String × String) =>
          if e.1 = hashLabel || e.1 = "" || e.2 = "" then tags
          else tags.insert (keyPrefix ++ e.1) e.2)
        tags).get? (keyPrefix ++ key) =
      (if key = hashLabel ∨ key = "" then none
        else (KeyMap.find? key es).filter (· ≠ "")).or (tags.get? (keyPrefix ++ key)) := by
  induction es generalizing tags with
  | nil => simp [KeyMap.find?]
  | cons e es ih =>
    obtain ⟨hhead, hes⟩ := List.nodup_cons.mp hes
    rw [List.foldl_cons, ih hes, KeyMap.find?]
    by_cases hkey : key = e.1
    · -- no later entry has the key
      subst hkey
      rw [KeyMap.find?_eq_none hhead, if_pos rfl]
      by_cases hskip : e.1 = hashLabel ∨ e.1 = ""
      · simp [hskip]
      · by_cases hvalue : e.2 = "" <;> simp [not_or.mp hskip, hvalue, Option.filter]
    · have hsame : (if e.1 = hashLabel || e.1 = "" || e.2 = "" then tags
          else tags.insert (keyPrefix ++ e.1) e.2).get? (keyPrefix ++ key) =
            tags.get? (keyPrefix ++ key) := by
        split
        · rfl
        · exact KeyMap.get?_insert_of_ne fun h => hkey ((String.append_right_inj keyPrefix).mp h)
      rw [if_neg hkey, hsame]

/-- The tags that are added replace what stood under their keys. -/
theorem get?_addTags (keyPrefix : String) (tags more : KeyMap String) (key : String) :
    (addTags keyPrefix tags more).get? (keyPrefix ++ key) =
      (wantedTag more key).or (tags.get? (keyPrefix ++ key)) :=
  addTags_entries keyPrefix more.keys_nodup tags key

/-- Other keys are left alone. -/
theorem get?_addTags_of_foreign {keyPrefix key : String} (hkey : ∀ k, key ≠ keyPrefix ++ k)
    (tags more : KeyMap String) : (addTags keyPrefix tags more).get? key = tags.get? key := by
  rw [addTags]
  generalize more.toList = es
  induction es generalizing tags with
  | nil => rfl
  | cons e es ih =>
    rw [List.foldl_cons, ih]
    split
    · rfl
    · exact KeyMap.get?_insert_of_ne (hkey e.1)

/-! ## Keys -/

/-- No kind has the name of the key of namespaces. -/
theorem ResourceKind.name_ne_namespace (kind : ResourceKind) : kind.name ≠ "namespace" := by
  cases kind <;> decide

theorem ne_label_append {key : String} (hkey : key.toList.head? ≠ some 'l') (k : String) :
    key ≠ "label." ++ k := by
  rintro rfl
  exact hkey (by rw [String.toList_append]; rfl)

theorem ResourceKind.name_ne_label (kind : ResourceKind) : ∀ k, kind.name ≠ "label." ++ k :=
  ne_label_append (by cases kind <;> decide)

theorem namespace_ne_label : ∀ k, "namespace" ≠ "label." ++ k := ne_label_append (by decide)

/-! ## The tags of a target -/

/-- Without labels the rule decides, then the identity of the resource. -/
theorem get?_targetTags_plain (kind : ResourceKind) (object : ObjectMeta)
    (ruleTags : KeyMap String) (key : String) :
    (targetTags kind object ruleTags false).get? key =
      (wantedTag ruleTags key).or ((identityTags kind object).get? key) := by
  have h := get?_addTags "" (identityTags kind object) ruleTags key
  rwa [String.empty_append] at h

/-- Outside of the keys of labels the rule decides, then the identity of the resource. -/
theorem get?_targetTags {key : String} (hkey : ∀ k, key ≠ "label." ++ k) (kind : ResourceKind)
    (object : ObjectMeta) (ruleTags : KeyMap String) (withLabels : Bool) :
    (targetTags kind object ruleTags withLabels).get? key =
      (wantedTag ruleTags key).or ((identityTags kind object).get? key) := by
  have hplain := get?_targetTags_plain kind object ruleTags key
  cases withLabels with
  | false => exact hplain
  | true => exact (get?_addTags_of_foreign hkey _ _).trans hplain

theorem get?_identityTags_kind (kind : ResourceKind) (object : ObjectMeta) :
    (identityTags kind object).get? kind.name = some object.name := by
  simp only [identityTags]
  split
  · exact KeyMap.get?_insert_self _ _ _
  · rw [KeyMap.get?_insert_of_ne kind.name_ne_namespace, KeyMap.get?_insert_self]

theorem get?_identityTags_namespace (kind : ResourceKind) (object : ObjectMeta) :
    (identityTags kind object).get? "namespace" =
      if object.ns = "" then none else some object.ns := by
  simp only [identityTags]
  split
  · rw [KeyMap.get?_insert_of_ne kind.name_ne_namespace.symm]
    rfl
  · exact KeyMap.get?_insert_self _ _ _

theorem get?_identityTags_label (kind : ResourceKind) (object : ObjectMeta) (label : String) :
    (identityTags kind object).get? ("label." ++ label) = none := by
  have hkind : (KeyMap.insert (∅ : KeyMap String) kind.name object.name).get? ("label." ++ label) =
      none := KeyMap.get?_insert_of_ne (kind.name_ne_label label).symm
  simp only [identityTags]
  split
  · exact hkind
  · exact (KeyMap.get?_insert_of_ne (namespace_ne_label label).symm).trans hkind

/-- The labels of a resource add to its tags exactly if one of them is to be a tag that the rule
    does not have already. -/
theorem targetTags_ne_iff {kind : ResourceKind} {object : ObjectMeta} {ruleTags : KeyMap String} :
    targetTags kind object ruleTags true ≠ targetTags kind object ruleTags false ↔
      ∃ label value, wantedTag object.labels label = some value ∧
        wantedTag ruleTags ("label." ++ label) ≠ some value := by
  have hplain : ∀ label, (targetTags kind object ruleTags false).get? ("label." ++ label) =
      wantedTag ruleTags ("label." ++ label) := fun label => by
    rw [get?_targetTags_plain, get?_identityTags_label, Option.or_none]
  have hlabel : ∀ label, (targetTags kind object ruleTags true).get? ("label." ++ label) =
      (wantedTag object.labels label).or (wantedTag ruleTags ("label." ++ label)) := fun label =>
    (get?_addTags "label." _ object.labels label).trans (congrArg _ (hplain label))
  constructor
  · -- what no label changes is found alike
    refine not_imp_comm.mp fun hnone => KeyMap.ext_get? fun key => ?_
    by_cases hkey : ∃ label, key = "label." ++ label
    · obtain ⟨label, rfl⟩ := hkey
      rw [hlabel, hplain]
      cases hwanted : wantedTag object.labels label with
      | none => rfl
      | some value =>
        exact (of_not_not fun hne => hnone ⟨label, value, hwanted, hne⟩ : _ = some value).symm
    · have hforeign : ∀ label, key ≠ "label." ++ label := fun label h => hkey ⟨label, h⟩
      rw [get?_targetTags hforeign, get?_targetTags hforeign]
  · rintro ⟨label, value, hwanted, hne⟩ heq
    have hget := hlabel label
    rw [heq, hplain, hwanted] at hget
    exact hne hget

theorem targetTags_eq_iff {kind : ResourceKind} {object : ObjectMeta} {ruleTags : KeyMap String}
    {p q : Bool} : targetTags kind object ruleTags p = targetTags kind object ruleTags q ↔
      p = q ∨ ¬∃ label value, wantedTag object.labels label = some value ∧
        wantedTag ruleTags ("label." ++ label) ≠ some value := by
  have hadded : targetTags kind object ruleTags true ≠ targetTags kind object ruleTags false ↔ _ :=
    targetTags_ne_iff
  rw [← hadded, not_not]
  cases p <;> cases q <;> simp [eq_comm]

/-! ## The tags of encodings -/

/-- The tag that a rule asks for under a key, if there is a rule. -/
def ruleTag (rule : Option Rule) (key : String) : Option String :=
  rule.bind fun r => wantedTag r.tags key

namespace Encoder

/-- The annotation that says whether labels become tags. -/
def labelsKey : Encoder → String
  | .prometheus keys _ => keys.key "includeLabels"
  | .telegraf _ => telegrafLabelsAnnotation

/-- Whether an encoder makes tags of the labels of a resource. -/
def takesLabels (e : Encoder) (object : ObjectMeta) (rule : Option Rule) : Bool :=
  setting object (some e.labelsKey) ((rule.map (·.includeLabels)).getD "") "true" = "true"

/-- The tags that a rule has, none without one. -/
def ruleTags (rule : Option Rule) : KeyMap String := (rule.map (·.tags)).getD ∅

theorem wantedTag_ruleTags (rule : Option Rule) (key : String) :
    wantedTag (ruleTags rule) key = ruleTag rule key := by
  cases rule with
  | none =>
    -- what has no tags asks for none
    exact Option.eq_none_iff_forall_ne_some.mpr fun value hvalue =>
      nomatch (wantedTag_eq_some_iff.mp hvalue).2.1
  | some r => rfl

variable {e : Encoder} {ip : String} {kind : ResourceKind} {object : ObjectMeta}
  {rule : Option Rule} {config : ScrapeConfig}

/-- Every encoder takes the tags from the same places. -/
theorem tags_of_encode (h : e.encode ip kind object rule = .ok (some config)) :
    config.tags = targetTags kind object (ruleTags rule) (e.takesLabels object rule) := by
  cases e with
  | prometheus keys nodeName =>
    obtain ⟨c, rfl, -, -, -, htags⟩ := encodePrometheus_eq_ok h
    cases rule <;> exact htags
  | telegraf defaults =>
    obtain ⟨r, c, rfl, rfl, -, -, -, -, htags⟩ := encodeTelegraf_eq_some (Except.ok.inj h)
    exact htags

theorem get?_tags_kind (h : e.encode ip kind object rule = .ok (some config)) :
    config.tags.get? kind.name = some ((ruleTag rule kind.name).getD object.name) := by
  rw [tags_of_encode h, get?_targetTags kind.name_ne_label, get?_identityTags_kind,
    wantedTag_ruleTags]
  cases ruleTag rule kind.name <;> rfl

theorem get?_tags_namespace (h : e.encode ip kind object rule = .ok (some config)) :
    config.tags.get? "namespace" =
      (ruleTag rule "namespace").or (if object.ns = "" then none else some object.ns) := by
  rw [tags_of_encode h, get?_targetTags namespace_ne_label, get?_identityTags_namespace,
    wantedTag_ruleTags]

end Encoder

end ScrapeDiscovery

import Mathlib.Tactic.Common
import ScrapeDiscovery.Rule.Document
import ScrapeDiscovery.Proofs.Datum.Records
import ScrapeDiscovery.Proofs.Duration.Roundtrip
import ScrapeDiscovery.Proofs.Json.Roundtrip
import ScrapeDiscovery.Settings.Document

/-!
# Reading rules back

Every field of a rule is written under the name that it is read under, so a rule that was
written is read as it was, from the value as well as from its line. A port and the switch
for labels may stand in a document as integers or truth values; these count as their texts,
so the document with the texts says the same, and so does the rule that was read when it is
written in turn.

Results:
* `Rule.ofDatum?_toJson`, `Rule.ofText?_compact`: rules are read back.
* `Rule.ofDatum?_plain`, `LegacyRule.ofDatum?_plain`: integers and truth values count as
  their texts.
* `Rule.faithful_documents`: both, with the rules of a document written again.
-/

namespace ScrapeDiscovery

/-! ## Parts of a rule -/

theorem Datum.map?_ofTexts (m : KeyMap String) : map? text? (ofJson (.ofTexts m)) = some m :=
  map?_ofMap (fun _ => rfl) m

theorem Datum.map?_ofTextLists (m : KeyMap (List String)) :
    map? (list? text?) (ofJson (.ofTextLists m)) = some m :=
  map?_ofMap list?_texts m

theorem Datum.optional?_duration (d : Option Duration) :
    optional? duration? (ofJson (Duration.toJson? d)) = some d := by
  cases d with
  | none => rfl
  | some d =>
    have hread : duration? (.scalar (ofText d.render)) = some d := by
      show (Duration.parse d.render).toOption = some d
      rw [Duration.parse_render]
      rfl
    show (duration? (.scalar (ofText d.render))).map some = some (some d)
    rw [hread]
    rfl

theorem Selectors.ofDatum?_toJson (s : Selectors) : ofDatum? (.ofJson s.toJson) = some s := by
  obtain ⟨f, hf, hget⟩ := @Datum.exists_fields?_written fieldNames s.toJson rfl rfl (by decide)
  rw [ofDatum?, hf, Option.bind_eq_bind, Option.bind_some]
  rw [Fields.get_eq (hget "resourceType" (.text s.resourceType) rfl),
    Fields.get_eq (hget "images" (.texts s.images) rfl), Datum.list?_texts,
    Fields.get_eq (hget "labels" (.ofTextLists s.labels) rfl), Datum.map?_ofTextLists,
    Fields.get_eq (hget "namespaces" (.texts s.namespaces) rfl), Datum.list?_texts]
  rfl

theorem MetricFilters.ofDatum?_toJson (f : MetricFilters) :
    ofDatum? (.ofJson f.toJson) = some f := by
  obtain ⟨g, hg, hget⟩ := @Datum.exists_fields?_written fieldNames f.toJson rfl rfl (by decide)
  rw [ofDatum?, hg, Option.bind_eq_bind, Option.bind_some]
  rw [Fields.get_eq (hget "metricAllowList" (.texts f.metricAllow) rfl), Datum.list?_texts,
    Fields.get_eq (hget "metricDenyList" (.texts f.metricDeny) rfl), Datum.list?_texts,
    Fields.get_eq (hget "metricTagAllowList" (.ofTextLists f.metricTagAllow) rfl),
    Datum.map?_ofTextLists,
    Fields.get_eq (hget "metricTagDenyList" (.ofTextLists f.metricTagDeny) rfl),
    Datum.map?_ofTextLists,
    Fields.get_eq (hget "tagInclude" (.texts f.tagInclude) rfl), Datum.list?_texts,
    Fields.get_eq (hget "tagExclude" (.texts f.tagExclude) rfl), Datum.list?_texts]
  rfl

theorem Collection.ofDatum?_toJson (c : Collection) : ofDatum? (.ofJson c.toJson) = some c := by
  obtain ⟨f, hf, hget⟩ := @Datum.exists_fields?_written fieldNames c.toJson rfl rfl (by decide)
  rw [ofDatum?, hf, Option.bind_eq_bind, Option.bind_some]
  rw [Fields.get_eq (hget "interval" (Duration.toJson? c.interval) rfl),
    Datum.optional?_duration,
    Fields.get_eq (hget "timeout" (Duration.toJson? c.timeout) rfl), Datum.optional?_duration]
  rfl

theorem Rule.ofDatum?_toJson (r : Rule) : ofDatum? (.ofJson r.toJson) = some r := by
  obtain ⟨f, hf, hget⟩ := @Datum.exists_fields?_written fieldNames r.toJson rfl rfl (by decide)
  rw [ofDatum?, hf, Option.bind_eq_bind, Option.bind_some]
  rw [Fields.required?_eq (hget "name" (.text r.name) rfl),
    Fields.required?_eq (hget "type" (.text r.pluginType) rfl),
    Fields.get_eq (hget "selectors" r.selectors.toJson rfl), Selectors.ofDatum?_toJson,
    Fields.get_eq (hget "port" (.text r.port) rfl),
    Fields.get_eq (hget "scheme" (.text r.scheme) rfl),
    Fields.get_eq (hget "path" (.text r.path) rfl),
    Fields.get_eq (hget "conf" (.text r.conf) rfl),
    Fields.get_eq (hget "source" (.text r.source) rfl),
    Fields.get_eq (hget "prefix" (.text r.metricPrefix) rfl),
    Fields.get_eq (hget "tags" (.ofTexts r.tags) rfl), Datum.map?_ofTexts,
    Fields.get_eq (hget "includeLabels" (.text r.includeLabels) rfl),
    Fields.get_eq (hget "filters" r.filters.toJson rfl), MetricFilters.ofDatum?_toJson,
    Fields.get_eq (hget "collection" r.collection.toJson rfl), Collection.ofDatum?_toJson]
  rfl

/-! ## Lines -/

section Numbers

variable {p : String → Prop}

theorem Duration.everyNumber_toJson? (d : Option Duration) : (toJson? d).EveryNumber p := by
  cases d <;> trivial

theorem Collection.everyNumber_toJson (c : Collection) : c.toJson.EveryNumber p := by
  simp [toJson, Json.everyNumber_object, Duration.everyNumber_toJson?]

theorem MetricFilters.everyNumber_toJson (f : MetricFilters) : f.toJson.EveryNumber p := by
  simp [toJson, Json.everyNumber_object, Json.everyNumber_texts, Json.everyNumber_ofTextLists]

/-- A rule is written without numbers. -/
theorem Rule.everyNumber_toJson (r : Rule) : r.toJson.EveryNumber p := by
  simp [toJson, Selectors.toJson, Json.everyNumber_object,
    Json.everyNumber_texts, Json.everyNumber_ofTexts, Json.everyNumber_ofTextLists,
    MetricFilters.everyNumber_toJson, Collection.everyNumber_toJson]

end Numbers

/-- Reads a rule from a JSON text. -/
def Rule.ofText? (document : String) : Option Rule :=
  (Json.parse document).bind fun j => ofDatum? (.ofJson j)

/-- A rule is read back from its line. -/
theorem Rule.ofText?_compact (r : Rule) : ofText? r.toJson.compact = some r := by
  rw [ofText?, Json.parse_compact r.everyNumber_toJson, Option.bind_some, ofDatum?_toJson]

/-! ## Integers and truth values for texts -/

namespace Datum

/-- An integer or a truth value as its text, anything else as it is. -/
def asText : Datum → Datum
  | .scalar s =>
    match s.atom with
    | .int n => .scalar (ofText (toString n))
    | .bool b => .scalar (ofText (if b then "true" else "false"))
    | _ => .scalar s
  | d => d

theorem textOfAny?_asText (d : Datum) : d.asText.textOfAny? = d.textOfAny? := by
  cases d with
  | scalar s => cases h : s.atom <;> simp [asText, textOfAny?, h, ofText]
  | list asRecord items => rfl
  | mapping entries => rfl

/-- A value of the field `name`, as its text for a port and the switch for labels. -/
def plainField (name : String) (d : Datum) : Datum :=
  if name = "port" ∨ name = "includeLabels" then d.asText else d

theorem textOfAny?_plainField (name : String) (d : Datum) :
    (plainField name d).textOfAny? = d.textOfAny? := by
  rw [plainField]
  split
  · exact d.textOfAny?_asText
  · rfl

theorem plainField_of_ne {name : String} (hport : name ≠ "port")
    (hlabels : name ≠ "includeLabels") (d : Datum) : plainField name d = d :=
  if_neg (not_or.mpr ⟨hport, hlabels⟩)

/-- The values of a record in the order of its fields, with ports and switches as texts. -/
def plainItems : List FieldName → List Datum → List Datum
  | f :: names, d :: items => plainField f.name d :: plainItems names items
  | _, items => items

/-- The entry of a record, with ports and switches as texts. -/
def plainEntry (e : Datum × Datum) : Datum × Datum :=
  (e.1, (e.1.text?.map plainField).getD id e.2)

/-- A record with the fields `names`, with ports and switches as texts. -/
def plain (names : List FieldName) : Datum → Datum
  | .scalar s => .scalar s
  | .list asRecord items => .list asRecord (plainItems names items)
  | .mapping entries => .mapping (entries.map plainEntry)

end Datum

/-- The fields of a record, with ports and switches as texts. -/
def Fields.plain (fields : Fields) : Fields :=
  ⟨fields.toList.map fun e => (e.1, Datum.plainField e.1 e.2), List.pairwise_map.mpr fields.sorted⟩

namespace Fields

open Datum (plainField plainItems plainEntry fieldOf? addFields fields?)

theorem get?_plain (fields : Fields) (name : String) :
    fields.plain.get? name = (KeyMap.get? fields name).map (plainField name) := by
  have hfind (es : List (String × Datum)) :
      KeyMap.find? name (es.map fun e => (e.1, plainField e.1 e.2)) =
        (KeyMap.find? name es).map (plainField name) := by
    induction es with
    | nil => rfl
    | cons e es ih =>
      by_cases h : name = e.1
      · simp [KeyMap.find?, h]
      · simp [KeyMap.find?, h, ih]
  exact hfind fields.toList

theorem contains_plain (fields : Fields) (name : String) :
    fields.plain.contains name = KeyMap.contains fields name := by
  rw [KeyMap.contains, get?_plain, Option.isSome_map]
  rfl

theorem plain_insert (fields : Fields) (name : String) (d : Datum) :
    plain (fields.insert name d) = fields.plain.insert name (plainField name d) := by
  refine KeyMap.ext_get? fun k => ?_
  rw [get?_plain, KeyMap.get?_insert, KeyMap.get?_insert, get?_plain]
  split
  · next h => rw [h, Option.map_some]
  · rfl

theorem plain_foldl_insert (es : List (String × Datum)) (fields : Fields) :
    plain (es.foldl (fun m e => m.insert e.1 e.2) fields) =
      (es.map fun e => (e.1, plainField e.1 e.2)).foldl (fun m e => m.insert e.1 e.2)
        fields.plain := by
  induction es generalizing fields with
  | nil => rfl
  | cons e es ih => rw [List.foldl_cons, ih, plain_insert, List.map_cons, List.foldl_cons]

theorem zip_plainItems (names : List FieldName) (items : List Datum) :
    (names.map (·.name)).zip (plainItems names items) =
      ((names.map (·.name)).zip items).map fun e => (e.1, plainField e.1 e.2) := by
  induction names generalizing items with
  | nil => rfl
  | cons f names ih =>
    cases items with
    | nil => rfl
    | cons d items => simp [plainItems, ih]

theorem length_plainItems (names : List FieldName) (items : List Datum) :
    (plainItems names items).length = items.length := by
  induction names generalizing items with
  | nil => rfl
  | cons f names ih =>
    cases items with
    | nil => rfl
    | cons d items => simp [plainItems, ih]

section Reading

variable {names : List FieldName} (hnames : ∀ key name, fieldOf? names key = some name → name = key)

include hnames

theorem addFields_plain (entries : List (Datum × Datum)) (fields : Fields) :
    addFields names (entries.map plainEntry) fields.plain =
      (addFields names entries fields).map plain := by
  induction entries generalizing fields with
  | nil => rfl
  | cons e entries ih =>
    obtain ⟨key, value⟩ := e
    cases hkey : key.text? with
    | none => simp [addFields, plainEntry, hkey]
    | some t =>
      cases hfield : fieldOf? names t with
      | none => simp [addFields, plainEntry, hkey, hfield]
      | some name =>
        obtain rfl := hnames t name hfield
        by_cases hgiven : KeyMap.contains fields name = true
        · simp [addFields, plainEntry, hkey, hfield, contains_plain, hgiven]
        · simpa [addFields, plainEntry, hkey, hfield, contains_plain, hgiven, plain_insert] using
            ih (fields.insert name value)

/-- The fields of a record with texts for ports and switches. -/
theorem fields?_plain (d : Datum) :
    fields? names (d.plain names) = (fields? names d).map plain := by
  cases d with
  | scalar s =>
    rw [Datum.plain, fields?]
    split <;> rfl
  | list asRecord items =>
    rw [Datum.plain, fields?, fields?, length_plainItems, zip_plainItems]
    split
    · exact congrArg some (plain_foldl_insert _ ∅).symm
    · rfl
  | mapping entries => exact addFields_plain hnames entries ∅

end Reading

/-- A field that reads integers and truth values as their texts, or is neither a port nor a
switch, reads the same. -/
theorem get_plain {α : Type} {name : String} {read : Datum → Option α}
    (hread : ∀ d, read (plainField name d) = read d) (fields : Fields) (default : α) :
    fields.plain.get name read default = fields.get name read default := by
  rw [get, get, get?_plain]
  cases KeyMap.get? fields name with
  | none => rfl
  | some d => exact hread d

theorem required?_plain {α : Type} {name : String} {read : Datum → Option α}
    (hread : ∀ d, read (plainField name d) = read d) (fields : Fields) :
    fields.plain.required? name read = fields.required? name read := by
  rw [required?, required?, get?_plain]
  cases KeyMap.get? fields name with
  | none => rfl
  | some d => exact hread d

end Fields

theorem Datum.eq_of_fieldOf? {names : List FieldName} (hnames : ∀ f ∈ names, f.aliases = [])
    {key name : String} (h : fieldOf? names key = some name) : name = key := by
  obtain ⟨f, hf, rfl⟩ := Option.map_eq_some_iff.mp h
  have hkey := List.find?_some hf
  rw [hnames f (List.mem_of_find?_eq_some hf)] at hkey
  simpa using hkey

/-- A rule reads the same with texts for its port and its switch. -/
theorem Rule.ofDatum?_plain (d : Datum) : ofDatum? (d.plain fieldNames) = ofDatum? d := by
  have hnames : ∀ f ∈ fieldNames, f.aliases = [] := by decide
  rw [ofDatum?, ofDatum?, Fields.fields?_plain fun _ _ => Datum.eq_of_fieldOf? hnames]
  cases d.fields? fieldNames with
  | none => rfl
  | some f =>
    rw [Option.map_some, Option.bind_eq_bind, Option.bind_eq_bind, Option.bind_some,
      Option.bind_some]
    iterate 2 rw [Fields.required?_plain]
    iterate 11 rw [Fields.get_plain]
    all_goals
      first
        | exact Datum.textOfAny?_plainField _
        | exact fun d => congrArg _ (Datum.plainField_of_ne (by decide) (by decide) d)

/-! ## Documents -/

/-- An integer of 64 bits or a truth value as its text, anything else as it is. -/
def Json.asText : Json → Json
  | .number l =>
    match (Json.number l).int? Text.IntRange.int64 with
    | some n => .text (toString n)
    | none => .number l
  | .bool b => .text (if b then "true" else "false")
  | j => j

/-- The member of an object, as its text for a port and the switch for labels. -/
def Json.plainMember (m : String × Json) : String × Json :=
  (m.1, if m.1 = "port" ∨ m.1 = "includeLabels" then m.2.asText else m.2)

namespace Datum

theorem ofJson_asText (j : Json) : ofJson j.asText = (ofJson j).asText := by
  cases j with
  | number l =>
    cases h : (Json.number l).int? Text.IntRange.int64 <;> simp [Json.asText, ofJson, asText, h]
  | null | bool | text | list | object => rfl

theorem ofJson_plainMembers (names : List FieldName) (ms : List (String × Json)) :
    ofJson (.object (ms.map Json.plainMember)) = (ofJson (.object ms)).plain names := by
  have hmember (m : String × Json) :
      ofJson (Json.plainMember m).2 = plainField m.1 (ofJson m.2) := by
    rw [Json.plainMember, plainField]
    split
    · exact ofJson_asText m.2
    · rfl
  rw [ofJson, ofJson, plain, ofMembers_eq_map, ofMembers_eq_map, List.map_map, List.map_map]
  exact congrArg mapping (List.map_congr_left fun m _ => congrArg (Prod.mk _) (hmember m))

end Datum

/-- Documents are faithful: every rule is read back from what was written for it, be it as a
value or on a line. In the data of any document, an integer or a truth value for a port or
the switch for labels counts as its text, and writing the rule that was read and reading it
again changes nothing. -/
theorem Rule.faithful_documents :
    (∀ r : Rule, ofDatum? (.ofJson r.toJson) = some r ∧ ofText? r.toJson.compact = some r) ∧
    (∀ d : Datum, ofDatum? (d.plain fieldNames) = ofDatum? d ∧
      (ofDatum? d).bind (fun r => ofText? r.toJson.compact) = ofDatum? d) ∧
    ∀ ms : List (String × Json),
      ofDatum? (.ofJson (.object (ms.map Json.plainMember))) = ofDatum? (.ofJson (.object ms)) := by
  refine ⟨fun r => ⟨r.ofDatum?_toJson, r.ofText?_compact⟩, fun d => ⟨ofDatum?_plain d, ?_⟩,
    fun ms => ?_⟩
  · have hback : (fun r : Rule => ofText? r.toJson.compact) = some := funext ofText?_compact
    rw [hback, Option.bind_fun_some]
  · rw [Datum.ofJson_plainMembers fieldNames, ofDatum?_plain]

example :
    Rule.ofDatum? (.ofJson (.object [("name", .text "r"), ("type", .text "telegraf/redis"),
      ("port", .number "6379"), ("includeLabels", .bool true)])) =
      some { name := "r", pluginType := "telegraf/redis", port := "6379"
             includeLabels := "true" } := by
  cbv

end ScrapeDiscovery

import Mathlib.Tactic.Common
import ScrapeDiscovery.Datum.OfJson

/-!
# The data of written records

A record that is written with each of its fields under the field's first name has exactly
these fields when it is read. Lists of texts and maps are read back item by item.

Results:
* `exists_fields?_written`: the fields of a written record.
* `list?_texts`, `map?_ofMap`: collections.
-/

namespace ScrapeDiscovery

/-- Reading written items one by one. -/
theorem mapM_map_eq_some {α β γ : Type} {read : β → Option γ} {write : α → β} {f : α → γ}
    {xs : List α} (h : ∀ x ∈ xs, read (write x) = some (f x)) :
    (xs.map write).mapM read = some (xs.map f) := by
  induction xs with
  | nil => rfl
  | cons x xs ih =>
    rw [List.map_cons, List.mapM_cons, h x List.mem_cons_self,
      ih fun y hy => h y (List.mem_cons_of_mem x hy)]
    rfl

namespace Datum

theorem ofItems_eq_map (xs : List Json) : ofItems xs = xs.map ofJson := by
  induction xs with
  | nil => rfl
  | cons x xs ih => rw [ofItems, ih, List.map_cons]

theorem ofMembers_eq_map (ms : List (String × Json)) :
    ofMembers ms = ms.map fun m => (.scalar (ofText m.1), ofJson m.2) := by
  induction ms with
  | nil => rfl
  | cons m ms ih => rw [ofMembers, ih, List.map_cons]

/-! ## Collections -/

theorem list?_texts (xs : List String) : list? text? (ofJson (.texts xs)) = some xs := by
  have hitems : (xs.map (ofJson ∘ .text)).mapM text? = some (xs.map id) :=
    mapM_map_eq_some fun _ _ => rfl
  rw [Json.texts, ofJson, ofItems_eq_map, list?, List.map_map, hitems, List.map_id]

/-- A map is read back when its values are. -/
theorem map?_ofMap {α : Type} {read : Datum → Option α} {write : α → Json}
    (h : ∀ v, read (ofJson (write v)) = some v) (m : KeyMap α) :
    map? read (ofJson (.ofMap (m.map write))) = some m := by
  let readEntry (e : Datum × Datum) : Option (String × α) := do
    return (← text? e.1, ← read e.2)
  let writeEntry (e : String × α) : Datum × Datum := (.scalar (ofText e.1), ofJson (write e.2))
  have hentries : (m.toList.map writeEntry).mapM readEntry = some (m.toList.map id) := by
    refine mapM_map_eq_some fun e _ => ?_
    simp [readEntry, writeEntry, h, text?, ofText]
  rw [List.map_id] at hentries
  have hmap : map? read (ofJson (.ofMap (m.map write))) =
      ((m.toList.map writeEntry).mapM readEntry).map KeyMap.ofList := by
    rw [Json.ofMap, KeyMap.map, ofJson, ofMembers_eq_map, map?, List.map_map]
    rfl
  rw [hmap, hentries, Option.map_some, KeyMap.ofList_toList]

/-! ## Records -/

/-- Whether the first names of fields are distinct and each names its own field. -/
def Unambiguous (names : List FieldName) : Prop :=
  (names.map (·.name)).Nodup ∧ ∀ f ∈ names, fieldOf? names f.name = some f.name

instance (names : List FieldName) : Decidable (Unambiguous names) := instDecidableAnd

theorem addFields_ofMembers {names : List FieldName} {ms : List (String × Json)}
    (hknown : ∀ m ∈ ms, fieldOf? names m.1 = some m.1) (hms : (ms.map (·.1)).Nodup)
    {fields : Fields} (hfree : ∀ m ∈ ms, fields.get? m.1 = none) :
    addFields names (ofMembers ms) fields =
      some ((ms.map fun m => (m.1, ofJson m.2)).foldl (fun f e => f.insert e.1 e.2) fields) := by
  induction ms generalizing fields with
  | nil => rfl
  | cons m ms ih =>
    obtain ⟨hhead, hms⟩ := List.nodup_cons.mp hms
    have hname := hknown m List.mem_cons_self
    have hcontains : fields.contains m.1 = false := by
      rw [KeyMap.contains, hfree m List.mem_cons_self]
      rfl
    have hrest : ∀ m' ∈ ms, (fields.insert m.1 (ofJson m.2)).get? m'.1 = none := by
      intro m' hm'
      have hne : m'.1 ≠ m.1 := fun h => hhead (List.mem_map.mpr ⟨m', hm', h⟩)
      rw [KeyMap.get?_insert_of_ne hne]
      exact hfree m' (List.mem_cons_of_mem m hm')
    rw [List.map_cons, List.foldl_cons,
      ← ih (fun m' hm' => hknown m' (List.mem_cons_of_mem m hm')) hms hrest]
    simp [ofMembers, addFields, text?, ofText, hname, hcontains]

/-- A record that was written as `j` has the fields that were written. -/
theorem exists_fields?_written {names : List FieldName} {j : Json} (hj : j = .object j.members)
    (hkeys : j.members.map (·.1) = names.map (·.name)) (hnames : Unambiguous names) :
    ∃ fields : Fields, fields? names (ofJson j) = some fields ∧
      ∀ name v, KeyMap.find? name j.members = some v →
        KeyMap.get? fields name = some (ofJson v) := by
  have hknown : ∀ m ∈ j.members, fieldOf? names m.1 = some m.1 := by
    intro m hm
    have hmem : m.1 ∈ names.map (·.name) := hkeys ▸ List.mem_map_of_mem hm
    obtain ⟨f, hf, hname⟩ := List.mem_map.mp hmem
    rw [← hname]
    exact hnames.2 f hf
  have hnodup : (j.members.map (·.1)).Nodup := hkeys ▸ hnames.1
  have hnodup' : ((j.members.map fun m => (m.1, ofJson m.2)).map (·.1)).Nodup := by
    rw [List.map_map]
    exact hnodup
  refine ⟨KeyMap.ofList (j.members.map fun m => (m.1, ofJson m.2)), ?_, fun name v hv => ?_⟩
  · rw [hj, ofJson, fields?, addFields_ofMembers hknown hnodup fun _ _ => rfl]
    rfl
  · rw [KeyMap.get?_ofList hnodup', KeyMap.find?_map_snd, hv, Option.map_some]

end Datum

namespace Fields

variable {α : Type} {fields : Fields} {name : String} {d : Datum}

theorem get_eq (h : KeyMap.get? fields name = some d) (read : Datum → Option α) (default : α) :
    fields.get name read default = read d := by
  rw [get, h]

theorem required?_eq (h : KeyMap.get? fields name = some d) (read : Datum → Option α) :
    fields.required? name read = read d := by
  rw [required?, h, Option.bind_some]

end Fields

end ScrapeDiscovery

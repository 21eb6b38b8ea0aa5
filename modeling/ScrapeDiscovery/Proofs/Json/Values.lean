import Mathlib.Tactic.Common
import ScrapeDiscovery.Json.Number
import ScrapeDiscovery.Rule.Document

/-!
# JSON values as they are written and kept

Values without numbers are not changed when their numbers are settled, and the canonical
form of an object with distinct names has the same members, each in canonical form.

Results:
* `settleNumbers?_of_hasNoNumbers`: values without numbers.
* `get?_canonical`: the members of the canonical form.
* `canonical_texts`, `canonical_ofTexts`: collections of texts are canonical.
-/

namespace ScrapeDiscovery.Json

/-! ## Induction -/

/-- Induction on values, through the items of lists and the members of objects. -/
theorem induction {P : Json → Prop} (null : P .null) (bool : ∀ b, P (.bool b))
    (number : ∀ l, P (.number l)) (text : ∀ s, P (.text s))
    (list : ∀ xs, (∀ x ∈ xs, P x) → P (.list xs))
    (object : ∀ ms : List (String × Json), (∀ m ∈ ms, P m.2) → P (.object ms)) (j : Json) :
    P j :=
  match j with
  | .null => null
  | .bool b => bool b
  | .number l => number l
  | .text s => text s
  | .list xs => list xs fun x _ => induction null bool number text list object x
  | .object ms => object ms fun m _ => induction null bool number text list object m.2
termination_by j
decreasing_by
  · have hx : sizeOf x < sizeOf xs := List.sizeOf_lt_of_mem ‹_›
    simp only [Json.list.sizeOf_spec]
    omega
  · have hm : sizeOf m < sizeOf ms := List.sizeOf_lt_of_mem ‹_›
    have hpair : sizeOf m = 1 + sizeOf m.1 + sizeOf m.2 := rfl
    simp only [Json.object.sizeOf_spec]
    omega

/-! ## Numbers -/

section Numbers

variable (p : String → Prop)

mutual

/-- Whether `p` holds for every number of a value, as it is written. -/
def EveryNumber : Json → Prop
  | .number l => p l
  | .list xs => EveryNumberOfItems xs
  | .object ms => EveryNumberOfMembers ms
  | _ => True

/-- Whether `p` holds for every number of items. -/
def EveryNumberOfItems : List Json → Prop
  | [] => True
  | x :: xs => EveryNumber x ∧ EveryNumberOfItems xs

/-- Whether `p` holds for every number of members. -/
def EveryNumberOfMembers : List (String × Json) → Prop
  | [] => True
  | (_, v) :: ms => EveryNumber v ∧ EveryNumberOfMembers ms

end

end Numbers

variable {p : String → Prop}

theorem everyNumber_list {xs : List Json} :
    EveryNumber p (.list xs) ↔ ∀ x ∈ xs, EveryNumber p x := by
  rw [EveryNumber]
  induction xs with
  | nil => simp [EveryNumberOfItems]
  | cons x xs ih => simp [EveryNumberOfItems, ih]

theorem everyNumber_object {ms : List (String × Json)} :
    EveryNumber p (.object ms) ↔ ∀ m ∈ ms, EveryNumber p m.2 := by
  rw [EveryNumber]
  induction ms with
  | nil => simp [EveryNumberOfMembers]
  | cons m ms ih => simp [EveryNumberOfMembers, ih]

@[simp] theorem everyNumber_text (s : String) : EveryNumber p (.text s) := trivial

@[simp] theorem everyNumber_bool (b : Bool) : EveryNumber p (.bool b) := trivial

/-- Whether a number is an integer, written plainly. -/
def IsWrittenInt (l : String) : Prop := ∃ n : Int, l = toString n

/-- Whether all numbers of a value are integers. -/
abbrev IsIntegral : Json → Prop := EveryNumber IsWrittenInt

theorem isIntegral_nat (n : Nat) : (nat n).IsIntegral := ⟨n, rfl⟩

theorem isIntegral_int (n : Int) : (int n).IsIntegral := ⟨n, rfl⟩

/-- Whether a value holds no number. -/
abbrev HasNoNumbers : Json → Prop := EveryNumber fun _ => False

theorem everyNumber_texts (xs : List String) : EveryNumber p (texts xs) := by
  refine everyNumber_list.mpr fun x hx => ?_
  obtain ⟨t, -, rfl⟩ := List.mem_map.mp hx
  trivial

theorem everyNumber_ofMap {α : Type} {m : KeyMap α} {write : α → Json}
    (h : ∀ v ∈ m.values, EveryNumber p (write v)) : EveryNumber p (ofMap (m.map write)) := by
  refine everyNumber_object.mpr fun e he => ?_
  obtain ⟨e', he', rfl⟩ := List.mem_map.mp he
  exact h e'.2 (List.mem_map_of_mem he')

theorem everyNumber_ofTexts (m : KeyMap String) : EveryNumber p (ofTexts m) :=
  everyNumber_ofMap fun _ _ => trivial

theorem everyNumber_ofTextLists (m : KeyMap (List String)) : EveryNumber p (ofTextLists m) :=
  everyNumber_ofMap fun xs _ => everyNumber_texts xs

theorem settleNumbers?_of_hasNoNumbers {j : Json} (h : j.HasNoNumbers) :
    j.settleNumbers? = some j := by
  induction j using induction with
  | null | bool | text => rfl
  | number l => exact h.elim
  | list xs ih =>
    have hitems (ys : List Json) (hys : ∀ y ∈ ys, y.settleNumbers? = some y) :
        settleItems? ys = some ys := by
      induction ys with
      | nil => rfl
      | cons y ys ih =>
        rw [settleItems?, hys y List.mem_cons_self,
          ih fun z hz => hys z (List.mem_cons_of_mem y hz)]
    rw [settleNumbers?, hitems xs fun x hx => ih x hx (everyNumber_list.mp h x hx)]
    rfl
  | object ms ih =>
    have hmembers (ns : List (String × Json)) (hns : ∀ n ∈ ns, n.2.settleNumbers? = some n.2) :
        settleMembers? ns = some ns := by
      induction ns with
      | nil => rfl
      | cons n ns ih =>
        rw [settleMembers?, hns n List.mem_cons_self,
          ih fun m hm => hns m (List.mem_cons_of_mem n hm)]
    rw [settleNumbers?, hmembers ms fun m hm => ih m hm (everyNumber_object.mp h m hm)]
    rfl

/-! ## Depth -/

theorem depth_list_le {xs : List Json} {n : Nat} (h : ∀ x ∈ xs, x.depth ≤ n) :
    (Json.list xs).depth ≤ n + 1 := by
  have hitems : depthOfItems xs ≤ n := by
    induction xs with
    | nil => exact Nat.zero_le n
    | cons x xs ih =>
      rw [depthOfItems]
      exact Nat.max_le.mpr ⟨h x List.mem_cons_self, ih fun y hy => h y (List.mem_cons_of_mem x hy)⟩
  rw [depth]
  omega

theorem depth_object_le {ms : List (String × Json)} {n : Nat} (h : ∀ m ∈ ms, m.2.depth ≤ n) :
    (Json.object ms).depth ≤ n + 1 := by
  have hmembers : depthOfMembers ms ≤ n := by
    induction ms with
    | nil => exact Nat.zero_le n
    | cons m ms ih =>
      rw [depthOfMembers]
      exact Nat.max_le.mpr
        ⟨h m List.mem_cons_self, ih fun m' hm => h m' (List.mem_cons_of_mem m hm)⟩
  rw [depth]
  omega

theorem depth_texts_le (xs : List String) : (texts xs).depth ≤ 1 := by
  refine depth_list_le (n := 0) fun x hx => ?_
  obtain ⟨t, -, rfl⟩ := List.mem_map.mp hx
  exact Nat.le_refl 0

theorem depth_ofTexts_le (m : KeyMap String) : (ofTexts m).depth ≤ 1 := by
  refine depth_object_le (n := 0) fun e he => ?_
  obtain ⟨e, -, rfl⟩ := List.mem_map.mp he
  exact Nat.le_refl 0

theorem depth_ofTextLists_le (m : KeyMap (List String)) : (ofTextLists m).depth ≤ 2 := by
  refine depth_object_le (n := 1) fun e he => ?_
  obtain ⟨e, -, rfl⟩ := List.mem_map.mp he
  exact depth_texts_le e.2

/-! ## The canonical form -/

theorem canonicalItems_eq_map (xs : List Json) : canonicalItems xs = xs.map canonical := by
  induction xs with
  | nil => rfl
  | cons x xs ih => rw [canonicalItems, ih, List.map_cons]

theorem canonicalMembers_eq_map (ms : List (String × Json)) :
    canonicalMembers ms = ms.map fun m => (m.1, m.2.canonical) := by
  induction ms with
  | nil => rfl
  | cons m ms ih => rw [canonicalMembers, ih, List.map_cons]

theorem canonical_texts (xs : List String) : (texts xs).canonical = texts xs := by
  rw [texts, canonical, canonicalItems_eq_map, List.map_map]
  rfl

theorem canonical_ofTexts (m : KeyMap String) : (ofTexts m).canonical = ofTexts m := by
  have hmembers : canonicalMembers (m.map Json.text).toList = (m.map Json.text).toList := by
    rw [canonicalMembers_eq_map, KeyMap.map, List.map_map]
    rfl
  rw [ofTexts, ofMap, canonical, hmembers, KeyMap.ofList_toList]

theorem get?_object {ms : List (String × Json)} (hms : (ms.map (·.1)).Nodup) (name : String) :
    (object ms).get? name = KeyMap.find? name ms := by
  show (ms.findRev? fun m => m.1 = name).map (·.2) = KeyMap.find? name ms
  induction ms with
  | nil => rfl
  | cons m ms ih =>
    obtain ⟨hhead, hms⟩ := List.nodup_cons.mp hms
    have ih := ih hms
    rw [List.findRev?, KeyMap.find?]
    cases hlast : ms.findRev? fun m => m.1 = name with
    | some last =>
      -- a later member of that name rules out this one
      rw [hlast] at ih
      have hmem := KeyMap.mem_of_find? ih.symm
      have hne : name ≠ m.1 := fun h => hhead (List.mem_map.mpr ⟨_, hmem, h⟩)
      rw [if_neg hne, ← ih]
    | none =>
      rw [hlast] at ih
      by_cases h : m.1 = name
      · simp [h]
      · simp [h, Ne.symm h, ← ih]

theorem get?_ofMap (m : KeyMap Json) (name : String) : (ofMap m).get? name = m.get? name :=
  get?_object m.keys_nodup name

/-- A member of an object with distinct names, in the canonical form. -/
theorem get?_canonical {ms : List (String × Json)} (hms : (ms.map (·.1)).Nodup) (name : String) :
    (canonical (.object ms)).get? name = (KeyMap.find? name ms).map canonical := by
  have hnodup : ((ms.map fun m => (m.1, m.2.canonical)).map (·.1)).Nodup := by
    rw [List.map_map]
    exact hms
  have hobject : canonical (.object ms) = ofMap (KeyMap.ofList (canonicalMembers ms)) := rfl
  rw [hobject, get?_ofMap, canonicalMembers_eq_map, KeyMap.get?_ofList hnodup,
    KeyMap.find?_map_snd]

end ScrapeDiscovery.Json

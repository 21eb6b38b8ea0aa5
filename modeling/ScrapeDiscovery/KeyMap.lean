/-!
# Maps sorted by a text key

A `KeyMap α` holds at most one value per key and keeps its entries in ascending
order of the keys, compared by code points. Labels, tags, registries, pipelines
and every answer with named parts are maps of this kind, so the order in which
they are shown is the order of the type.

Results:
* `ext_get?`: a map is determined by what `get?` answers.
* `get?_insert`, `get?_erase`, `get?_filter`, `get?_map`: each operation through
  the view `get?`.
* `mem_toList_iff`, `keys_pairwise`: the entries are the pairs that `get?`
  answers, and their keys ascend strictly.
* `ofList_toList`: a map is the map of its entries.
* `ofList_append_cons`: pairs with other keys may be put in before or after.
-/

namespace ScrapeDiscovery

universe u v

/-- A finite map from text keys, its entries in ascending order of the keys. -/
structure KeyMap (α : Type u) where
  /-- The entries, in ascending order of their keys. -/
  toList : List (String × α)
  /-- The keys ascend strictly. -/
  sorted : toList.Pairwise fun a b => a.1 < b.1
  deriving DecidableEq, Repr

namespace KeyMap

variable {α : Type u} {β : Type v}

/-! ## Operations on sorted entries -/

/-- Puts `v` under `k` into sorted entries, replacing what stood there. -/
def insertEntry (k : String) (v : α) : List (String × α) → List (String × α)
  | [] => [(k, v)]
  | e :: es =>
    if k < e.1 then (k, v) :: e :: es
    else if k = e.1 then (k, v) :: es
    else e :: insertEntry k v es

/-- The value of the first entry with key `k`. -/
def find? (k : String) : List (String × α) → Option α
  | [] => none
  | e :: es => if k = e.1 then some e.2 else find? k es

theorem lt_or_gt_of_ne {a b : String} (h : a ≠ b) : a < b ∨ b < a := by
  rcases String.le_total a b with hab | hba
  · exact Or.inl (Classical.byContradiction fun hn =>
      h (String.le_antisymm hab (String.not_lt.1 hn)))
  · exact Or.inr (Classical.byContradiction fun hn =>
      h (String.le_antisymm (String.not_lt.1 hn) hba))

theorem mem_insertEntry {k : String} {v : α} {e : String × α} {es : List (String × α)}
    (h : e ∈ insertEntry k v es) : e = (k, v) ∨ e ∈ es := by
  induction es with
  | nil => simpa [insertEntry] using h
  | cons d ds ih =>
    simp only [insertEntry] at h
    split at h
    · simpa using h
    · split at h
      · rcases List.mem_cons.1 h with h | h
        · exact Or.inl h
        · exact Or.inr (List.mem_cons_of_mem _ h)
      · rcases List.mem_cons.1 h with h | h
        · exact Or.inr (h ▸ List.mem_cons_self)
        · exact (ih h).imp_right (List.mem_cons_of_mem _)

theorem insertEntry_sorted {k : String} {v : α} {es : List (String × α)}
    (h : es.Pairwise fun a b => a.1 < b.1) :
    (insertEntry k v es).Pairwise fun a b => a.1 < b.1 := by
  induction es with
  | nil => simp [insertEntry]
  | cons d ds ih =>
    obtain ⟨hd, hds⟩ := List.pairwise_cons.1 h
    simp only [insertEntry]
    split
    · rename_i hlt
      refine List.pairwise_cons.2 ⟨fun e he => ?_, h⟩
      rcases List.mem_cons.1 he with rfl | he
      · exact hlt
      · exact String.lt_trans hlt (hd e he)
    · rename_i hnlt
      split
      · rename_i heq
        exact List.pairwise_cons.2 ⟨fun e he => by simpa [heq] using hd e he, hds⟩
      · rename_i hne
        refine List.pairwise_cons.2 ⟨fun e he => ?_, ih hds⟩
        rcases mem_insertEntry he with rfl | he
        · exact (lt_or_gt_of_ne hne).resolve_left hnlt
        · exact hd e he

theorem find?_insertEntry {k k' : String} {v : α} {es : List (String × α)} :
    find? k' (insertEntry k v es) = if k' = k then some v else find? k' es := by
  induction es with
  | nil => simp [insertEntry, find?]
  | cons d ds ih =>
    simp only [insertEntry]
    split
    · simp [find?]
    · split
      · rename_i heq
        by_cases hk : k' = k
        · simp [find?, hk]
        · have hd : k' ≠ d.1 := heq ▸ hk
          simp [find?, hk, hd]
      · rename_i hne
        by_cases hd : k' = d.1
        · have hk : k' ≠ k := fun h => hne (h ▸ hd)
          simp only [find?, if_pos hd, if_neg hk]
        · simp [find?, hd, ih]

theorem mem_of_find? {k : String} {v : α} {es : List (String × α)}
    (h : find? k es = some v) : (k, v) ∈ es := by
  induction es with
  | nil => simp [find?] at h
  | cons d ds ih =>
    simp only [find?] at h
    split at h
    · rename_i hk
      injection h with h
      exact hk ▸ h ▸ List.mem_cons_self
    · exact List.mem_cons_of_mem _ (ih h)

theorem find?_of_mem {k : String} {v : α} {es : List (String × α)}
    (hs : es.Pairwise fun a b => a.1 < b.1) (h : (k, v) ∈ es) : find? k es = some v := by
  induction es with
  | nil => simp at h
  | cons d ds ih =>
    obtain ⟨hd, hds⟩ := List.pairwise_cons.1 hs
    rcases List.mem_cons.1 h with rfl | h
    · simp [find?]
    · have hlt := hd _ h
      have hne : k ≠ d.1 := fun he => String.lt_irrefl _ (he ▸ hlt)
      simp only [find?, if_neg hne]
      exact ih hds h

theorem find?_eq_none {k : String} {es : List (String × α)} (hk : k ∉ es.map (·.1)) :
    find? k es = none :=
  Option.eq_none_iff_forall_ne_some.2 fun v hv =>
    hk (List.mem_map.2 ⟨(k, v), mem_of_find? hv, rfl⟩)

/-- A new entry stands somewhere among those that were there. -/
theorem exists_insertEntry {k : String} {v : α} {es : List (String × α)}
    (hk : ∀ e ∈ es, k ≠ e.1) :
    ∃ before after, es = before ++ after ∧ insertEntry k v es = before ++ (k, v) :: after := by
  induction es with
  | nil => exact ⟨[], [], rfl, rfl⟩
  | cons e es ih =>
    obtain ⟨he, hes⟩ := List.forall_mem_cons.1 hk
    rw [insertEntry, if_neg he]
    split
    · exact ⟨[], e :: es, rfl, rfl⟩
    · obtain ⟨before, after, hsplit, hinsert⟩ := ih hes
      exact ⟨e :: before, after, congrArg (e :: ·) hsplit, congrArg (e :: ·) hinsert⟩

/-- An entry of which nothing is taken does not count. -/
theorem filterMap_insertEntry {k : String} {v : α} {es : List (String × α)}
    {f : String × α → Option β} (hf : ∀ v, f (k, v) = none) :
    (insertEntry k v es).filterMap f = es.filterMap f := by
  induction es with
  | nil => exact List.filterMap_cons_none (hf v)
  | cons e es ih =>
    rw [insertEntry]
    split
    · exact List.filterMap_cons_none (hf v)
    · split
      · rename_i hk
        have he : f e = none := by
          rw [show e = (k, e.2) from Prod.ext hk.symm rfl]
          exact hf e.2
        rw [List.filterMap_cons_none (hf v), List.filterMap_cons_none he]
      · rw [List.filterMap_cons, List.filterMap_cons, ih]

/-! ## The map -/

/-- The map without entries. -/
def empty : KeyMap α := ⟨[], List.Pairwise.nil⟩

instance : EmptyCollection (KeyMap α) := ⟨empty⟩

instance : Inhabited (KeyMap α) := ⟨empty⟩

/-- The value stored under `k`. -/
def get? (m : KeyMap α) (k : String) : Option α := find? k m.toList

/-- Whether a value is stored under `k`. -/
def contains (m : KeyMap α) (k : String) : Bool := (m.get? k).isSome

/-- Stores `v` under `k`, replacing what was there. -/
def insert (m : KeyMap α) (k : String) (v : α) : KeyMap α :=
  ⟨insertEntry k v m.toList, insertEntry_sorted m.sorted⟩

/-- Keeps the entries that `p` accepts. -/
def filter (m : KeyMap α) (p : String → α → Bool) : KeyMap α :=
  ⟨m.toList.filter fun e => p e.1 e.2, m.sorted.filter _⟩

/-- Removes the entry under `k`. -/
def erase (m : KeyMap α) (k : String) : KeyMap α := m.filter fun k' _ => k' ≠ k

/-- Applies `f` to every value. -/
def map (m : KeyMap α) (f : α → β) : KeyMap β :=
  ⟨m.toList.map fun e => (e.1, f e.2), List.pairwise_map.2 m.sorted⟩

/-- The keys, ascending. -/
def keys (m : KeyMap α) : List String := m.toList.map (·.1)

/-- The values in ascending order of their keys. -/
def values (m : KeyMap α) : List α := m.toList.map (·.2)

/-- The number of entries. -/
def size (m : KeyMap α) : Nat := m.toList.length

/-- Whether there is no entry. -/
def isEmpty (m : KeyMap α) : Bool := m.toList.isEmpty

/-- The map of a list of pairs; of two pairs with one key the later counts. -/
def ofList (es : List (String × α)) : KeyMap α :=
  es.foldl (fun m e => m.insert e.1 e.2) empty

/-! ## The view `get?` -/

@[simp] theorem get?_empty (k : String) : (empty : KeyMap α).get? k = none := rfl

theorem get?_insert (m : KeyMap α) (k k' : String) (v : α) :
    (m.insert k v).get? k' = if k' = k then some v else m.get? k' :=
  find?_insertEntry

@[simp] theorem get?_insert_self (m : KeyMap α) (k : String) (v : α) :
    (m.insert k v).get? k = some v := by simp [get?_insert]

theorem get?_insert_of_ne {m : KeyMap α} {k k' : String} {v : α} (h : k' ≠ k) :
    (m.insert k v).get? k' = m.get? k' := by simp [get?_insert, h]

theorem get?_insert_eq_some {m : KeyMap α} {k k' : String} {v v' : α}
    (h : (m.insert k v).get? k' = some v') : k' = k ∧ v' = v ∨ k' ≠ k ∧ m.get? k' = some v' := by
  rw [get?_insert] at h
  split at h
  · next hk => exact Or.inl ⟨hk, (Option.some.inj h).symm⟩
  · next hk => exact Or.inr ⟨hk, h⟩

/-- The entries are the pairs that `get?` answers. -/
theorem mem_toList_iff {m : KeyMap α} {k : String} {v : α} :
    (k, v) ∈ m.toList ↔ m.get? k = some v :=
  ⟨find?_of_mem m.sorted, mem_of_find?⟩

theorem get?_filter (m : KeyMap α) (p : String → α → Bool) (k : String) :
    (m.filter p).get? k = (m.get? k).filter (p k) := by
  apply Option.ext
  intro v
  rw [← mem_toList_iff, Option.filter_eq_some_iff, ← mem_toList_iff]
  simp [filter, List.mem_filter]

theorem get?_erase (m : KeyMap α) (k k' : String) :
    (m.erase k).get? k' = if k' = k then none else m.get? k' := by
  rw [erase, get?_filter]
  by_cases h : k' = k <;> cases m.get? k' <;> simp [h, Option.filter]

@[simp] theorem get?_erase_self (m : KeyMap α) (k : String) : (m.erase k).get? k = none := by
  simp [get?_erase]

theorem get?_erase_of_ne {m : KeyMap α} {k k' : String} (h : k' ≠ k) :
    (m.erase k).get? k' = m.get? k' := by simp [get?_erase, h]

theorem get?_erase_eq_some {m : KeyMap α} {k k' : String} {v : α}
    (h : (m.erase k).get? k' = some v) : k' ≠ k ∧ m.get? k' = some v := by
  rw [get?_erase] at h
  split at h
  · cases h
  · next hk => exact ⟨hk, h⟩

theorem find?_map_snd (f : α → β) (k : String) (es : List (String × α)) :
    find? k (es.map fun e => (e.1, f e.2)) = (find? k es).map f := by
  induction es with
  | nil => rfl
  | cons d ds ih => by_cases h : k = d.1 <;> simp [find?, h, ih]

theorem get?_map (m : KeyMap α) (f : α → β) (k : String) :
    (m.map f).get? k = (m.get? k).map f :=
  find?_map_snd f k m.toList

/-- Of pairs with distinct keys every one counts. -/
theorem get?_foldl_insert {es : List (String × α)} (hes : (es.map (·.1)).Nodup) (m : KeyMap α)
    (k : String) :
    (es.foldl (fun m e => m.insert e.1 e.2) m).get? k = (find? k es).or (m.get? k) := by
  induction es generalizing m with
  | nil => rfl
  | cons e es ih =>
    obtain ⟨hhead, hes⟩ := List.nodup_cons.1 hes
    rw [List.foldl_cons, ih hes, get?_insert, find?]
    split
    · next hk =>
      rw [find?_eq_none (hk ▸ hhead)]
      rfl
    · rfl

theorem get?_ofList {es : List (String × α)} (hes : (es.map (·.1)).Nodup) (k : String) :
    (ofList es).get? k = find? k es := by
  rw [ofList, get?_foldl_insert hes, get?_empty, Option.or_none]

@[simp] theorem contains_iff {m : KeyMap α} {k : String} :
    m.contains k = true ↔ ∃ v, m.get? k = some v := by
  simp [contains, Option.isSome_iff_exists]

theorem mem_keys_iff {m : KeyMap α} {k : String} : k ∈ m.keys ↔ ∃ v, m.get? k = some v := by
  simp [keys, ← mem_toList_iff]

theorem keys_pairwise (m : KeyMap α) : m.keys.Pairwise (· < ·) := by
  simpa [keys, List.pairwise_map] using m.sorted

theorem keys_nodup (m : KeyMap α) : m.keys.Nodup :=
  List.Pairwise.imp (fun {a b} (h : a < b) => fun he : a = b => String.lt_irrefl b (he ▸ h))
    m.keys_pairwise

theorem mem_values_iff {m : KeyMap α} {v : α} : v ∈ m.values ↔ ∃ k, m.get? k = some v := by
  simp [values, ← mem_toList_iff]

theorem values_map (m : KeyMap α) (f : α → β) : (m.map f).values = m.values.map f := by
  simp only [values, map, List.map_map, Function.comp_def]

theorem values_filter (m : KeyMap α) (p : α → Bool) :
    (m.filter fun _ v => p v).values = m.values.filter p := by
  simp only [values, filter, List.filter_map, Function.comp_def]

/-! ## Extensionality -/

theorem toList_ext {es fs : List (String × α)} (he : es.Pairwise fun a b => a.1 < b.1)
    (hf : fs.Pairwise fun a b => a.1 < b.1) (h : ∀ e, e ∈ es ↔ e ∈ fs) : es = fs := by
  induction es generalizing fs with
  | nil =>
    cases fs with
    | nil => rfl
    | cons d ds => exact absurd ((h d).2 List.mem_cons_self) List.not_mem_nil
  | cons d ds ih =>
    cases fs with
    | nil => exact absurd ((h d).1 List.mem_cons_self) List.not_mem_nil
    | cons g gs =>
      obtain ⟨hd, hds⟩ := List.pairwise_cons.1 he
      obtain ⟨hg, hgs⟩ := List.pairwise_cons.1 hf
      have hdg : d = g := by
        rcases List.mem_cons.1 ((h d).1 List.mem_cons_self) with hx | hx
        · exact hx
        · rcases List.mem_cons.1 ((h g).2 List.mem_cons_self) with hy | hy
          · exact hy.symm
          · exact absurd (String.lt_trans (hg d hx) (hd g hy)) (String.lt_irrefl _)
      subst hdg
      refine congrArg (d :: ·) (ih hds hgs fun e => ⟨fun hm => ?_, fun hm => ?_⟩)
      · rcases List.mem_cons.1 ((h e).1 (List.mem_cons_of_mem _ hm)) with rfl | hx
        · exact absurd (hd e hm) (String.lt_irrefl _)
        · exact hx
      · rcases List.mem_cons.1 ((h e).2 (List.mem_cons_of_mem _ hm)) with rfl | hx
        · exact absurd (hg e hm) (String.lt_irrefl _)
        · exact hx

/-- A map is determined by what `get?` answers. -/
theorem ext_get? {m n : KeyMap α} (h : ∀ k, m.get? k = n.get? k) : m = n := by
  have he : m.toList = n.toList := toList_ext m.sorted n.sorted fun e => by
    rw [show e = (e.1, e.2) from rfl, mem_toList_iff, mem_toList_iff, h]
  cases m
  cases n
  cases he
  rfl

/-- A map is the map of its entries. -/
theorem ofList_toList (m : KeyMap α) : ofList m.toList = m :=
  ext_get? fun k => get?_ofList m.keys_nodup k

theorem insert_comm {m : KeyMap α} {k k' : String} {v v' : α} (hne : k ≠ k') :
    (m.insert k v).insert k' v' = (m.insert k' v').insert k v := by
  refine ext_get? fun key => ?_
  rw [get?_insert, get?_insert, get?_insert, get?_insert]
  by_cases hk : key = k
  · rw [if_pos hk, if_pos hk, if_neg (hk ▸ hne)]
  · rw [if_neg hk, if_neg hk]

/-- Of pairs the order does not count as long as no other one has the same key. -/
theorem ofList_append_cons {k : String} {v : α} {before after : List (String × α)}
    (hafter : ∀ e ∈ after, k ≠ e.1) :
    ofList (before ++ (k, v) :: after) = (ofList (before ++ after)).insert k v := by
  rw [ofList, ofList, List.foldl_append, List.foldl_append, List.foldl_cons]
  generalize before.foldl (fun m e => m.insert e.1 e.2) empty = m
  induction after generalizing m with
  | nil => rfl
  | cons e after ih =>
    obtain ⟨he, hrest⟩ := List.forall_mem_cons.1 hafter
    rw [List.foldl_cons, List.foldl_cons, insert_comm he, ih hrest]

theorem mem_foldl_insert {es : List (String × α)} {m : KeyMap α} {e : String × α}
    (h : e ∈ (es.foldl (fun m e => m.insert e.1 e.2) m).toList) : e ∈ m.toList ∨ e ∈ es := by
  induction es generalizing m with
  | nil => exact Or.inl h
  | cons d es ih =>
    rcases ih h with h | h
    · rcases mem_insertEntry h with rfl | h
      · exact Or.inr List.mem_cons_self
      · exact Or.inl h
    · exact Or.inr (List.mem_cons_of_mem _ h)

theorem mem_of_mem_ofList {es : List (String × α)} {e : String × α} (h : e ∈ (ofList es).toList) :
    e ∈ es :=
  (mem_foldl_insert h).resolve_left List.not_mem_nil

end KeyMap

end ScrapeDiscovery

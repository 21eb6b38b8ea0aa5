import ScrapeDiscovery.Proofs.Roster.Views
import ScrapeDiscovery.Proofs.Scrape.Encoding

/-!
# Consistent rosters

A roster is consistent if a registry records an owner for a target exactly when
a handler attached to it holds that target, and then that handler. Publishing a
target, giving targets up, closing a handler and adding one all keep it so.

Results:
* `Consistent.eq_of_holds`: handlers of one registry never share a target.
* `handler?_dismiss`, `owner?_dismiss`, `catalog_dismiss`: the views after a handler has given
  up targets.
* `Consistent.commit`, `Consistent.dismiss`, `Consistent.close`, `Consistent.add`: every
  operation keeps a roster consistent.
-/

namespace ScrapeDiscovery

/-- A handler without some of its targets. -/
def TargetHandler.without (h : TargetHandler) (p : String → Bool) : TargetHandler :=
  { h with entries := h.entries.filter fun target _ => !p target }

/-- A handler with one more target, or another encoding of one. -/
def TargetHandler.including (h : TargetHandler) (target : String) (config : ScrapeConfig) :
    TargetHandler :=
  { h with entries := h.entries.insert target config }

/-- All that never changes of a handler that is open, and whether it is closed. -/
def TargetHandler.blank (h : TargetHandler) : TargetHandler := { h with entries := ∅ }

namespace Roster

/-- A registry records an owner exactly where a handler attached to it holds the target. -/
def Consistent (r : Roster) : Prop :=
  ∀ registry target id, r.owner? registry target = some id ↔
    r.registryOf? id = some registry ∧ r.holds id target = true

theorem Consistent.ownersExist {r : Roster} (hc : r.Consistent) : r.OwnersExist := by
  intro registry target id ho
  obtain ⟨h, hid, -⟩ := registryOf?_eq_some_iff.mp ((hc registry target id).mp ho).1
  simp [hid]

/-- Handlers of one registry never share a target. -/
theorem Consistent.eq_of_holds {r : Roster} (hc : r.Consistent) {a b : HandlerId}
    {target : String} (hab : r.registryOf? a = r.registryOf? b) (ha : r.holds a target = true)
    (hb : r.holds b target = true) : a = b := by
  obtain ⟨h, -, hid, -⟩ := holds_iff.mp ha
  have hra : r.registryOf? a = some h.registry := registryOf?_eq_some_iff.mpr ⟨h, hid, rfl⟩
  have hoa := (hc h.registry target a).mpr ⟨hra, ha⟩
  have hob := (hc h.registry target b).mpr ⟨hab ▸ hra, hb⟩
  exact Option.some.inj (hoa.symm.trans hob)

/-! ## Giving up targets -/

theorem withdraw_eq (r : Roster) (id : HandlerId) (p : String → Bool) :
    r.withdraw id p = r.update id (·.without p) := rfl

theorem encoding_withdraw (r : Roster) (id : HandlerId) (p : String → Bool) (i : HandlerId)
    (target : String) :
    (r.withdraw id p).encoding i target =
      if i = id ∧ p target = true then none else r.encoding i target := by
  have hw := handler?_update r id (·.without p) i
  by_cases hi : i = id
  · subst hi
    rw [if_pos rfl] at hw
    cases hid : r.handler? i with
    | none =>
      rw [hid] at hw
      rw [withdraw_eq, encoding_of_handler?_eq_none hw, encoding_of_handler?_eq_none hid, ite_self]
    | some h =>
      rw [hid] at hw
      rw [withdraw_eq, encoding_of_handler? hw, encoding_of_handler? hid]
      simp only [TargetHandler.without, KeyMap.get?_filter]
      cases hp : p target <;> cases h.entries.get? target <;> simp
  · rw [if_neg hi] at hw
    simp [withdraw_eq, encoding, entries, hw, hi]

theorem ownersExist_update {r : Roster} (hr : r.OwnersExist) (id : HandlerId)
    (f : TargetHandler → TargetHandler) : (r.update id f).OwnersExist := by
  intro registry target i ho
  have hi := hr registry target i ho
  rw [handler?_update]
  split_ifs with h
  · rw [Option.isSome_map, ← h]
    exact hi
  · exact hi

theorem mem_picked {r : Roster} {id : HandlerId} {p : String → Bool} {target : String} :
    target ∈ r.picked id p ↔ r.holds id target = true ∧ p target = true := by
  rw [picked, List.mem_filter, KeyMap.mem_keys_iff, holds, KeyMap.contains_iff]

theorem picked_of_handler?_eq_none {r : Roster} {id : HandlerId} (hid : r.handler? id = none)
    (p : String → Bool) : r.picked id p = [] := by
  simp only [picked, entries, hid]
  rfl

theorem handler?_dismiss {r : Roster} (hc : r.Consistent) (id : HandlerId) (p : String → Bool)
    (i : HandlerId) :
    (r.dismiss id p).handler? i =
      if i = id then (r.handler? id).map (·.without p) else r.handler? i := by
  rw [dismiss, withdraw_eq, handler?_retractAll (ownersExist_update hc.ownersExist id _),
    handler?_update]

theorem owner?_dismiss {r : Roster} (hc : r.Consistent) (id : HandlerId) (p : String → Bool)
    (registry target : String) :
    (r.dismiss id p).owner? registry target =
      if r.owner? registry target = some id ∧ p target = true then none
      else r.owner? registry target := by
  rw [dismiss, withdraw_eq]
  cases hid : r.handler? id with
  | none =>
    rw [picked_of_handler?_eq_none hid, if_neg]
    · rfl
    · rintro ⟨ho, -⟩
      simpa [hid] using hc.ownersExist registry target id ho
  | some h =>
    have hid' : (r.update id (·.without p)).handler? id = some (h.without p) := by
      rw [handler?_update, if_pos rfl, hid]
      rfl
    rw [owner?_retractAll (ownersExist_update hc.ownersExist id _) hid', owner?_update]
    refine if_congr ⟨?_, ?_⟩ rfl rfl
    · rintro ⟨-, hm, ho⟩
      exact ⟨ho, (mem_picked.mp hm).2⟩
    · rintro ⟨ho, hp⟩
      obtain ⟨hreg, hh⟩ := (hc registry target id).mp ho
      obtain ⟨h', hid'', rfl⟩ := registryOf?_eq_some_iff.mp hreg
      rw [hid] at hid''
      cases hid''
      exact ⟨rfl, mem_picked.mpr ⟨hh, hp⟩, ho⟩

theorem catalog_dismiss {r : Roster} (hc : r.Consistent) {id : HandlerId} {h : TargetHandler}
    (hid : r.handler? id = some h) (p : String → Bool) (k : String) :
    (r.dismiss id p).catalog.get? k =
      if ∃ target ∈ r.picked id p, k = providerName h.factory.factoryName target then none
      else r.catalog.get? k := by
  have hid' : (r.update id (·.without p)).handler? id = some (h.without p) := by
    rw [handler?_update, if_pos rfl, hid]
    rfl
  rw [dismiss, withdraw_eq, catalog_retractAll (ownersExist_update hc.ownersExist id _) hid']
  refine if_congr ⟨?_, ?_⟩ rfl rfl
  · rintro ⟨target, hm, -, hk⟩
    exact ⟨target, hm, hk⟩
  · rintro ⟨target, hm, hk⟩
    have hreg := registryOf?_eq_some_iff.mpr ⟨h, hid, rfl⟩
    exact ⟨target, hm, (hc h.registry target id).mpr ⟨hreg, (mem_picked.mp hm).1⟩, hk⟩

theorem registryOf?_dismiss {r : Roster} (hc : r.Consistent) (id : HandlerId) (p : String → Bool)
    (i : HandlerId) : (r.dismiss id p).registryOf? i = r.registryOf? i := by
  rw [registryOf?, handler?_dismiss hc]
  split_ifs with hi
  · rw [Option.map_map, hi]
    rfl
  · rfl

theorem encoding_dismiss (r : Roster) (id : HandlerId) (p : String → Bool) (i : HandlerId)
    (target : String) :
    (r.dismiss id p).encoding i target =
      if i = id ∧ p target = true then none else r.encoding i target := by
  have hsame := handlers_retractAll (r.withdraw id p) id (r.picked id p)
  rw [dismiss, encoding_of_handlers_eq hsame, encoding_withdraw]

theorem nextId_dismiss (r : Roster) (id : HandlerId) (p : String → Bool) :
    (r.dismiss id p).nextId = r.nextId := by
  rw [dismiss, nextId, handlers_retractAll]
  exact nextId_update r id _

theorem holds_dismiss (r : Roster) (id : HandlerId) (p : String → Bool) (i : HandlerId)
    (target : String) :
    (r.dismiss id p).holds i target = true ↔
      r.holds i target = true ∧ ¬(i = id ∧ p target = true) := by
  simp only [holds_iff_encoding, encoding_dismiss]
  split_ifs with h <;> simp [h]

theorem Consistent.dismiss {r : Roster} (hc : r.Consistent) (id : HandlerId)
    (p : String → Bool) : (r.dismiss id p).Consistent := by
  intro registry target i
  rw [owner?_dismiss hc, registryOf?_dismiss hc, holds_dismiss, ← and_assoc, ← hc]
  by_cases hg : r.owner? registry target = some id ∧ p target = true
  · rw [if_pos hg]
    constructor
    · rintro ⟨⟩
    · rintro ⟨hi, hn⟩
      exact absurd ⟨Option.some.inj (hi.symm.trans hg.1), hg.2⟩ hn
  · rw [if_neg hg]
    constructor
    · intro hi
      refine ⟨hi, ?_⟩
      rintro ⟨rfl, hp⟩
      exact hg ⟨hi, hp⟩
    · exact And.left

/-! ## Closing and adding handlers -/

theorem Consistent.update_same {r : Roster} (hc : r.Consistent) (id : HandlerId)
    {f : TargetHandler → TargetHandler} (hreg : ∀ h, (f h).registry = h.registry)
    (hent : ∀ h, (f h).entries = h.entries) : (r.update id f).Consistent := by
  intro registry target i
  have hr : (r.update id f).registryOf? i = r.registryOf? i := by
    rw [registryOf?, handler?_update]
    split_ifs with hi
    · simp [registryOf?, hi, hreg, Function.comp_def]
    · rfl
  have he : (r.update id f).entries i = r.entries i := by
    rw [entries, handler?_update]
    split_ifs with hi
    · simp [entries, hi, hent, Function.comp_def]
    · rfl
  rw [owner?_update, hr, holds, he]
  exact hc registry target i

theorem Consistent.shut {r : Roster} (hc : r.Consistent) (id : HandlerId) :
    (r.shut id).Consistent :=
  hc.update_same id (fun _ => rfl) fun _ => rfl

theorem Consistent.close {r : Roster} (hc : r.Consistent) (id : HandlerId) :
    (r.close id).Consistent :=
  (hc.shut id).dismiss id _

/-- A closed handler holds nothing. -/
theorem handler?_close {r : Roster} (hc : r.Consistent) (id : HandlerId) (i : HandlerId) :
    (r.close id).handler? i =
      if i = id then (r.handler? id).map fun h => { h.blank with closed := true }
      else r.handler? i := by
  have hnone : ∀ h : TargetHandler, h.without (fun _ => true) = h.blank := by
    intro h
    have : h.entries.filter (fun target _ => !(fun _ => true) target) = ∅ :=
      KeyMap.ext_get? fun k => by rw [KeyMap.get?_filter]; cases h.entries.get? k <;> rfl
    rw [TargetHandler.without, this]
    rfl
  rw [Roster.close, handler?_dismiss (hc.shut id)]
  split_ifs with hi
  · rw [Roster.shut, handler?_update, if_pos rfl, Option.map_map]
    refine congrArg (Option.map · _) (funext fun h => ?_)
    exact hnone _
  · rw [Roster.shut, handler?_update, if_neg hi]

theorem encoding_shut (r : Roster) (id i : HandlerId) (target : String) :
    (r.shut id).encoding i target = r.encoding i target := by
  simp only [encoding, entries, Roster.shut, handler?_update]
  split_ifs with hi
  · rw [hi, Option.map_map]
    rfl
  · rfl

theorem factory?_shut (r : Roster) (id i : HandlerId) :
    (r.shut id).factory? i = r.factory? i := by
  simp only [factory?, Roster.shut, handler?_update]
  split_ifs with hi
  · rw [hi, Option.map_map]
    rfl
  · rfl

theorem encoding_add_empty (r : Roster) {h : TargetHandler} (hempty : h.entries = ∅)
    (i : HandlerId) (target : String) : (r.add h).encoding i target = r.encoding i target := by
  by_cases hi : i = r.nextId
  · subst hi
    rw [encoding_of_handler? (handler?_add_self r h), hempty,
      encoding_of_handler?_eq_none (handler?_nextId r)]
    rfl
  · simp only [encoding, entries, handler?_add, if_neg hi]

theorem factory?_add_of_ne (r : Roster) (h : TargetHandler) {i : HandlerId} (hi : i ≠ r.nextId) :
    (r.add h).factory? i = r.factory? i := by
  rw [factory?, handler?_add, if_neg hi, factory?]

/-- A handler that holds something was there before another was added. -/
theorem ne_nextId_of_holds {r : Roster} {i : HandlerId} {target : String}
    (hh : r.holds i target = true) : i ≠ r.nextId := by
  rintro rfl
  obtain ⟨h, -, hid, -⟩ := holds_iff.mp hh
  rw [handler?_nextId] at hid
  cases hid

theorem holds_shut (r : Roster) (id i : HandlerId) (target : String) :
    (r.shut id).holds i target = r.holds i target :=
  congrArg Option.isSome (encoding_shut r id i target)

theorem catalog_close {r : Roster} (hc : r.Consistent) {id : HandlerId} {h : TargetHandler}
    (hid : r.handler? id = some h) (k : String) :
    (r.close id).catalog.get? k =
      if ∃ target ∈ r.picked id fun _ => true, k = providerName h.factory.factoryName target then
        none
      else r.catalog.get? k := by
  have hid' : (r.shut id).handler? id = some { h with closed := true } := by
    rw [Roster.shut, handler?_update, if_pos rfl, hid]
    rfl
  rw [Roster.close, catalog_dismiss (hc.shut id) hid']
  refine if_congr (exists_congr fun target => ?_) rfl rfl
  rw [mem_picked, mem_picked, holds_shut]

theorem nextId_close (r : Roster) (id : HandlerId) : (r.close id).nextId = r.nextId := by
  rw [Roster.close, nextId_dismiss]
  exact nextId_update r id _

theorem Consistent.add {r : Roster} (hc : r.Consistent) {h : TargetHandler} (he : h.entries = ∅) :
    (r.add h).Consistent := by
  intro registry target i
  rw [owner?_add, hc]
  by_cases hi : i = r.nextId
  · subst hi
    have hnew : (r.add h).holds r.nextId target = false := by
      rw [holds_of_handler? (handler?_add_self r h), he]
      rfl
    simp [registryOf?, handler?_nextId, hnew]
  · simp only [registryOf?, holds, entries, handler?_add, if_neg hi]

/-! ## Publishing a target -/

/-- The roster after a handler `h` has published a target. -/
def commit (r : Roster) (id : HandlerId) (h : TargetHandler) (target : String)
    (config : ScrapeConfig) : Roster :=
  ((r.update id (·.including target config)).addProvider
    ⟨providerName h.factory.factoryName target, config⟩).enroll h.registry target id

theorem publish_eq {r : Roster} {id : HandlerId} {h : TargetHandler}
    (hid : r.handler? id = some h) (target : String) (config : ScrapeConfig) :
    r.publish id target config ⟨providerName h.factory.factoryName target, config⟩ =
      if h.closed then none else some (r.commit id h target config) := by
  simp only [publish, hid]
  rfl

theorem handler?_commit {r : Roster} {id : HandlerId} {h : TargetHandler}
    (hid : r.handler? id = some h) (target : String) (config : ScrapeConfig) (i : HandlerId) :
    (r.commit id h target config).handler? i =
      if i = id then some (h.including target config) else r.handler? i := by
  show (r.update id (·.including target config)).handler? i = _
  rw [handler?_update, hid]
  rfl

theorem owner?_commit (r : Roster) (id : HandlerId) (h : TargetHandler) (target : String)
    (config : ScrapeConfig) (registry target' : String) :
    (r.commit id h target config).owner? registry target' =
      if registry = h.registry ∧ target' = target then some id else r.owner? registry target' := by
  rw [commit, owner?_enroll]
  rfl

theorem catalog_commit (r : Roster) (id : HandlerId) (h : TargetHandler) (target : String)
    (config : ScrapeConfig) (k : String) :
    (r.commit id h target config).catalog.get? k =
      if k = providerName h.factory.factoryName target then some ⟨k, config⟩
      else r.catalog.get? k := by
  show (r.catalog.insert _ _).get? k = _
  rw [KeyMap.get?_insert]
  split_ifs with hk
  · rw [hk]
  · rfl

theorem registryOf?_commit {r : Roster} {id : HandlerId} {h : TargetHandler}
    (hid : r.handler? id = some h) (target : String) (config : ScrapeConfig) (i : HandlerId) :
    (r.commit id h target config).registryOf? i = r.registryOf? i := by
  rw [registryOf?, handler?_commit hid]
  split_ifs with hi
  · rw [registryOf?, hi, hid]
    rfl
  · rfl

theorem factory?_commit {r : Roster} {id : HandlerId} {h : TargetHandler}
    (hid : r.handler? id = some h) (target : String) (config : ScrapeConfig) (i : HandlerId) :
    (r.commit id h target config).factory? i = r.factory? i := by
  rw [factory?, handler?_commit hid]
  split_ifs with hi
  · rw [factory?, hi, hid]
    rfl
  · rfl

theorem encoding_commit {r : Roster} {id : HandlerId} {h : TargetHandler}
    (hid : r.handler? id = some h) (target : String) (config : ScrapeConfig) (i : HandlerId)
    (target' : String) :
    (r.commit id h target config).encoding i target' =
      if i = id ∧ target' = target then some config else r.encoding i target' := by
  have hh := handler?_commit hid target config i
  by_cases hi : i = id
  · subst hi
    rw [if_pos rfl] at hh
    rw [encoding_of_handler? hh, encoding_of_handler? hid, TargetHandler.including,
      KeyMap.get?_insert]
    simp
  · rw [if_neg hi] at hh
    simp [encoding, entries, hh, hi]

theorem holds_commit {r : Roster} {id : HandlerId} {h : TargetHandler}
    (hid : r.handler? id = some h) (target : String) (config : ScrapeConfig) (i : HandlerId)
    (target' : String) :
    (r.commit id h target config).holds i target' = true ↔
      r.holds i target' = true ∨ i = id ∧ target' = target := by
  simp only [holds_iff_encoding, encoding_commit hid]
  split_ifs with hi <;> simp [hi]

theorem Consistent.commit {r : Roster} (hc : r.Consistent) {id : HandlerId} {h : TargetHandler}
    (hid : r.handler? id = some h) {target : String}
    (hfree : ∀ i, r.owner? h.registry target = some i → i = id) (config : ScrapeConfig) :
    (r.commit id h target config).Consistent := by
  have hreg : r.registryOf? id = some h.registry := registryOf?_eq_some_iff.mpr ⟨h, hid, rfl⟩
  intro registry target' i
  rw [owner?_commit, registryOf?_commit hid, holds_commit hid]
  by_cases hrt : registry = h.registry ∧ target' = target
  · obtain ⟨rfl, rfl⟩ := hrt
    rw [if_pos ⟨rfl, rfl⟩]
    constructor
    · rintro ⟨⟩
      exact ⟨hreg, Or.inr ⟨rfl, rfl⟩⟩
    · rintro ⟨hri, hh | ⟨rfl, -⟩⟩
      · rw [hfree i ((hc _ _ i).mpr ⟨hri, hh⟩)]
      · rfl
  · rw [if_neg hrt, hc]
    refine and_congr_right fun hri => (or_iff_left ?_).symm
    rintro ⟨rfl, rfl⟩
    exact hrt ⟨Option.some.inj (hri.symm.trans hreg), rfl⟩

end Roster

end ScrapeDiscovery

import Mathlib.Tactic.Common
import ScrapeDiscovery.Roster.Upkeep

/-!
# Rosters through their views

A roster is read through three views: the handler of a number, the recorded
owner of a target name in a registry, and the live provider of a name. This
module says what the steps that nothing can come between do to each of them.

Results:
* `owner_eq`: where every recorded owner exists, looking one up changes nothing.
* `retract_eq`: what retracting a target does where every recorded owner exists.
* `owner?_retractAll`, `catalog_retractAll`: the views after retracting several targets.
-/

namespace ScrapeDiscovery.Roster

/-! ## The views -/

/-- The recorded owner of a target name in a registry. -/
def owner? (r : Roster) (registry target : String) : Option HandlerId :=
  (r.owners registry).get? target

/-- The registry that a handler is attached to. -/
def registryOf? (r : Roster) (id : HandlerId) : Option String := (r.handler? id).map (·.registry)

/-- The family whose factory builds the providers of a handler. -/
def factory? (r : Roster) (id : HandlerId) : Option Family := (r.handler? id).map (·.factory)

/-- Every recorded owner exists. -/
def OwnersExist (r : Roster) : Prop :=
  ∀ registry target id, r.owner? registry target = some id → (r.handler? id).isSome = true

theorem entries_of_handler? {r : Roster} {id : HandlerId} {h : TargetHandler}
    (hr : r.handler? id = some h) : r.entries id = h.entries := by
  simp [entries, hr]

theorem encoding_of_handler? {r : Roster} {id : HandlerId} {h : TargetHandler}
    (hr : r.handler? id = some h) (target : String) :
    r.encoding id target = h.entries.get? target := by
  rw [encoding, entries_of_handler? hr]

theorem encoding_of_handler?_eq_none {r : Roster} {id : HandlerId} (hr : r.handler? id = none)
    (target : String) : r.encoding id target = none := by
  have he : r.entries id = ∅ := by simp [entries, hr]
  rw [encoding, he]
  rfl

theorem encoding_of_handlers_eq {r r' : Roster} (hsame : r'.handlers = r.handlers) (id : HandlerId)
    (target : String) : r'.encoding id target = r.encoding id target := by
  simp only [encoding, entries, handler?, hsame]

theorem holds_iff_encoding {r : Roster} {id : HandlerId} {target : String} :
    r.holds id target = true ↔ ∃ config, r.encoding id target = some config := by
  rw [holds, KeyMap.contains_iff]
  rfl

theorem holds_iff {r : Roster} {id : HandlerId} {target : String} :
    r.holds id target = true ↔
      ∃ h config, r.handler? id = some h ∧ h.entries.get? target = some config := by
  rw [holds_iff_encoding]
  cases hr : r.handler? id with
  | none => simp [encoding_of_handler?_eq_none hr]
  | some h => simp [encoding_of_handler? hr]

theorem holds_of_handler? {r : Roster} {id : HandlerId} {h : TargetHandler}
    (hr : r.handler? id = some h) (target : String) :
    r.holds id target = h.entries.contains target := by
  rw [holds, entries_of_handler? hr]

theorem registryOf?_eq_some_iff {r : Roster} {id : HandlerId} {registry : String} :
    r.registryOf? id = some registry ↔ ∃ h, r.handler? id = some h ∧ h.registry = registry := by
  simp [registryOf?, Option.map_eq_some_iff]

theorem factory?_eq_some_iff {r : Roster} {id : HandlerId} {factory : Family} :
    r.factory? id = some factory ↔ ∃ h, r.handler? id = some h ∧ h.factory = factory := by
  simp [factory?, Option.map_eq_some_iff]

/-! ## Steps on handlers -/

theorem handler?_update (r : Roster) (id : HandlerId) (f : TargetHandler → TargetHandler)
    (i : HandlerId) :
    (r.update id f).handler? i = if i = id then (r.handler? id).map f else r.handler? i := by
  split_ifs with hi
  · rw [hi, handler?_update_self]
  · exact handler?_update_of_ne hi f

@[simp] theorem owner?_update (r : Roster) (id : HandlerId) (f : TargetHandler → TargetHandler)
    (registry target : String) :
    (r.update id f).owner? registry target = r.owner? registry target := rfl

theorem owners_openRegistry (r : Roster) (name registry : String) :
    (r.openRegistry name).owners registry = r.owners registry := by
  unfold openRegistry
  split
  · rfl
  · next hn =>
    simp only [owners, KeyMap.get?_insert]
    split_ifs with hr
    · have hnone : r.registries.get? registry = none := by
        rw [hr]
        simpa [KeyMap.contains] using hn
      rw [hnone]
      rfl
    · rfl

@[simp] theorem owner?_add (r : Roster) (h : TargetHandler) (registry target : String) :
    (r.add h).owner? registry target = r.owner? registry target :=
  congrArg (·.get? target) (owners_openRegistry r h.registry registry)

@[simp] theorem catalog_add (r : Roster) (h : TargetHandler) : (r.add h).catalog = r.catalog := by
  unfold add openRegistry
  split <;> rfl

theorem lt_nextId_of_handler? {r : Roster} {id : HandlerId} {h : TargetHandler}
    (hr : r.handler? id = some h) : id < r.nextId := by
  by_contra hge
  have hnone : r.handlers[id]? = none := List.getElem?_eq_none (Nat.le_of_not_lt hge)
  simp [handler?, hnone] at hr

theorem handler?_nextId (r : Roster) : r.handler? r.nextId = none := by
  cases hr : r.handler? r.nextId with
  | none => rfl
  | some h => exact absurd (lt_nextId_of_handler? hr) (Nat.lt_irrefl _)

theorem handler?_add (r : Roster) (h : TargetHandler) (id : HandlerId) :
    (r.add h).handler? id = if id = r.nextId then some h else r.handler? id := by
  split_ifs with hid
  · rw [hid, handler?_add_self]
  · rcases Nat.lt_or_gt_of_ne hid with hlt | hgt
    · exact handler?_add_of_lt hlt h
    · have hlen : r.handlers.length < id := hgt
      have hold : r.handlers[id]? = none := List.getElem?_eq_none (by omega)
      have hnew : (r.handlers ++ [some h])[id]? = none :=
        List.getElem?_eq_none (by simp only [List.length_append, List.length_singleton]; omega)
      simp [handler?, add, openRegistry_handlers, hold, hnew]

theorem nextId_update (r : Roster) (id : HandlerId) (f : TargetHandler → TargetHandler) :
    (r.update id f).nextId = r.nextId := by
  simp [update, nextId]

/-! ## Steps on registries and on the catalog -/

theorem owner?_insertRegistry (r : Roster) (registry : String) (m : KeyMap HandlerId)
    (registry' target : String) :
    ({ r with registries := r.registries.insert registry m } : Roster).owner? registry' target =
      if registry' = registry then m.get? target else r.owner? registry' target := by
  simp only [owner?, owners, KeyMap.get?_insert]
  split_ifs <;> rfl

theorem owner?_enroll (r : Roster) (registry target : String) (id : HandlerId)
    (registry' target' : String) :
    (r.enroll registry target id).owner? registry' target' =
      if registry' = registry ∧ target' = target then some id else r.owner? registry' target' := by
  rw [enroll, owner?_insertRegistry, KeyMap.get?_insert]
  by_cases hr : registry' = registry
  · subst hr
    by_cases ht : target' = target <;> simp [ht, owner?]
  · simp [hr]

theorem owner?_unenroll (r : Roster) (registry target registry' target' : String) :
    (r.unenroll registry target).owner? registry' target' =
      if registry' = registry ∧ target' = target then none else r.owner? registry' target' := by
  rw [unenroll, owner?_insertRegistry, KeyMap.get?_erase]
  by_cases hr : registry' = registry
  · subst hr
    by_cases ht : target' = target <;> simp [ht, owner?]
  · simp [hr]

theorem owner_eq {r : Roster} (hr : r.OwnersExist) (registry target : String) :
    r.owner registry target = (r.owner? registry target, r) := by
  unfold owner
  split
  · next ho => simp [owner?, ho]
  · next id ho =>
    rw [if_pos (hr registry target id ho)]
    simp [owner?, ho]

/-- Retracting a target, where every recorded owner exists. -/
theorem retract_eq {r : Roster} (hr : r.OwnersExist) {id : HandlerId} {h : TargetHandler}
    (hid : r.handler? id = some h) (target : String) :
    r.retract id target =
      if r.owner? h.registry target = some id then
        (r.deleteProvider (providerName h.factory.factoryName target)).unenroll h.registry target
      else r := by
  simp only [retract, hid, owner_eq hr]

@[simp] theorem handler?_retract {r : Roster} (hr : r.OwnersExist) (id : HandlerId)
    (target : String) (i : HandlerId) : (r.retract id target).handler? i = r.handler? i := by
  cases hid : r.handler? id with
  | none => simp [retract, hid]
  | some h =>
    rw [retract_eq hr hid]
    split <;> rfl

theorem owner?_retract {r : Roster} (hr : r.OwnersExist) {id : HandlerId} {h : TargetHandler}
    (hid : r.handler? id = some h) (target registry' target' : String) :
    (r.retract id target).owner? registry' target' =
      if registry' = h.registry ∧ target' = target ∧ r.owner? registry' target' = some id then none
      else r.owner? registry' target' := by
  rw [retract_eq hr hid]
  by_cases ho : r.owner? h.registry target = some id
  · rw [if_pos ho, owner?_unenroll]
    by_cases hrt : registry' = h.registry ∧ target' = target
    · obtain ⟨rfl, rfl⟩ := hrt
      simp [ho]
    · rw [if_neg hrt, if_neg fun hn => hrt ⟨hn.1, hn.2.1⟩]
      rfl
  · rw [if_neg ho]
    split_ifs with hn
    · obtain ⟨rfl, rfl, hn⟩ := hn
      exact absurd hn ho
    · rfl

theorem catalog_retract {r : Roster} (hr : r.OwnersExist) {id : HandlerId} {h : TargetHandler}
    (hid : r.handler? id = some h) (target k : String) :
    (r.retract id target).catalog.get? k =
      if r.owner? h.registry target = some id ∧ k = providerName h.factory.factoryName target then
        none
      else r.catalog.get? k := by
  rw [retract_eq hr hid]
  by_cases ho : r.owner? h.registry target = some id
  · rw [if_pos ho]
    simp [deleteProvider, unenroll, KeyMap.get?_erase, ho]
  · simp [ho]

theorem ownersExist_retract {r : Roster} (hr : r.OwnersExist) (id : HandlerId) (target : String) :
    (r.retract id target).OwnersExist := by
  intro registry' target' id' ho
  cases hid : r.handler? id with
  | none =>
    rw [show r.retract id target = r by simp [retract, hid]] at ho ⊢
    exact hr registry' target' id' ho
  | some h =>
    rw [handler?_retract hr]
    rw [owner?_retract hr hid] at ho
    split_ifs at ho
    exact hr registry' target' id' ho

theorem handlers_owner (r : Roster) (registry target : String) :
    (r.owner registry target).2.handlers = r.handlers := by
  unfold owner
  split
  · rfl
  · split <;> rfl

theorem handlers_retract (r : Roster) (id : HandlerId) (target : String) :
    (r.retract id target).handlers = r.handlers := by
  unfold retract
  split
  · rfl
  · next h _ =>
    rw [← handlers_owner r h.registry target]
    dsimp only
    split <;> rfl

/-! ## Retracting several targets -/

theorem handler?_retractAll {r : Roster} (hr : r.OwnersExist) (id : HandlerId)
    (targets : List String) (i : HandlerId) :
    (r.retractAll id targets).handler? i = r.handler? i := by
  induction targets generalizing r with
  | nil => rfl
  | cons t ts ih => exact (ih (ownersExist_retract hr id t)).trans (handler?_retract hr id t i)

theorem handlers_retractAll (r : Roster) (id : HandlerId) (targets : List String) :
    (r.retractAll id targets).handlers = r.handlers := by
  induction targets generalizing r with
  | nil => rfl
  | cons t ts ih => exact (ih (r.retract id t)).trans (handlers_retract r id t)

theorem owner?_retractAll {r : Roster} (hr : r.OwnersExist) {id : HandlerId} {h : TargetHandler}
    (hid : r.handler? id = some h) (targets : List String) (registry target : String) :
    (r.retractAll id targets).owner? registry target =
      if registry = h.registry ∧ target ∈ targets ∧ r.owner? registry target = some id then none
      else r.owner? registry target := by
  induction targets generalizing r with
  | nil => simp [retractAll]
  | cons t ts ih =>
    have hid' : (r.retract id t).handler? id = some h := by rw [handler?_retract hr, hid]
    have hstep : (r.retractAll id (t :: ts)) = (r.retract id t).retractAll id ts := rfl
    rw [hstep, ih (ownersExist_retract hr id t) hid', owner?_retract hr hid]
    by_cases ht : target = t
    · subst ht
      by_cases hro : registry = h.registry ∧ r.owner? registry target = some id
      · simp [hro.1, hro.1 ▸ hro.2]
      · have h1 : ¬(registry = h.registry ∧ target = target ∧
            r.owner? registry target = some id) := fun hn => hro ⟨hn.1, hn.2.2⟩
        rw [if_neg h1, if_neg fun hn => hro ⟨hn.1, hn.2.2⟩, if_neg fun hn => hro ⟨hn.1, hn.2.2⟩]
    · simp [ht]

theorem catalog_retractAll {r : Roster} (hr : r.OwnersExist) {id : HandlerId} {h : TargetHandler}
    (hid : r.handler? id = some h) (targets : List String) (k : String) :
    (r.retractAll id targets).catalog.get? k =
      if ∃ t ∈ targets, r.owner? h.registry t = some id ∧
          k = providerName h.factory.factoryName t then none
      else r.catalog.get? k := by
  induction targets generalizing r with
  | nil => simp [retractAll]
  | cons t ts ih =>
    have hid' : (r.retract id t).handler? id = some h := by rw [handler?_retract hr, hid]
    have hstep : (r.retractAll id (t :: ts)) = (r.retract id t).retractAll id ts := rfl
    rw [hstep, ih (ownersExist_retract hr id t) hid', catalog_retract hr hid]
    by_cases hk : r.owner? h.registry t = some id ∧ k = providerName h.factory.factoryName t
    · have hex : ∃ t' ∈ t :: ts, r.owner? h.registry t' = some id ∧
          k = providerName h.factory.factoryName t' := ⟨t, List.mem_cons_self, hk⟩
      rw [if_pos hk, if_pos hex, ite_self]
    · rw [if_neg hk]
      -- a target that the head has taken out of the registry is `t`, which gives nothing here
      refine if_congr ⟨?_, ?_⟩ rfl rfl
      · rintro ⟨t', ht', ho, rfl⟩
        rw [owner?_retract hr hid] at ho
        split_ifs at ho
        exact ⟨t', List.mem_cons_of_mem _ ht', ho, rfl⟩
      · rintro ⟨t', ht', ho, rfl⟩
        rcases List.mem_cons.mp ht' with rfl | ht'
        · exact absurd ⟨ho, rfl⟩ hk
        · refine ⟨t', ht', ?_, rfl⟩
          rw [owner?_retract hr hid, if_neg]
          · exact ho
          · rintro ⟨-, rfl, -⟩
            exact hk ⟨ho, rfl⟩

end ScrapeDiscovery.Roster

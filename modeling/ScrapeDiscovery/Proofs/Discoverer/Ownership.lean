import Mathlib.Algebra.GroupWithZero.Nat
import Mathlib.Data.List.Nodup
import ScrapeDiscovery.Proofs.Discoverer.Runs

/-!
# Registries and handlers agree

A registry names the owner of a target exactly where an installed handler that
is attached to it holds the target. So target names are unique within a
registry, and the registries together list as many targets as are held.

Results:
* `Sound.owner?_iff`: the agreement in every sound state.
* `Sound.sum_registry_sizes`: counting the targets by registries and by handlers.
* `owner?_iff_installed_holds`: both in every state of a run.
-/

namespace ScrapeDiscovery.Discoverer

/-! ## The agreement -/

/-- A handler that holds something is installed. -/
theorem Sound.mem_installed_of_holds {d : Discoverer} (hs : d.Sound) {id : HandlerId}
    {target : String} (hh : d.roster.holds id target = true) : id ∈ d.installed := by
  by_contra hnot
  obtain ⟨h, config, hid, hc⟩ := Roster.holds_iff.mp hh
  rw [(hs.idle id h hid hnot).1] at hc
  cases hc

theorem Sound.owner?_iff {d : Discoverer} (hs : d.Sound) (registry target : String)
    (id : HandlerId) :
    d.roster.owner? registry target = some id ↔
      id ∈ d.installed ∧ d.roster.registryOf? id = some registry ∧
        d.roster.holds id target = true := by
  rw [hs.consistent registry target id]
  exact ⟨fun h => ⟨hs.mem_installed_of_holds h.2, h⟩, And.right⟩

/-! ## Counting targets -/

theorem nodup_toList {α : Type} (m : KeyMap α) : m.toList.Nodup :=
  List.Nodup.of_map (fun e => e.1) (show (m.toList.map fun e => e.1).Nodup from m.keys_nodup)

theorem Sound.nodup_installed {d : Discoverer} (hs : d.Sound) : d.installed.Nodup := by
  have hh : d.handlers.Nodup := by
    rw [handlers, KeyMap.values, List.map_map]
    refine List.Nodup.map_on ?_ (nodup_toList d.pipelines)
    rintro ⟨k, p⟩ hp ⟨k', p'⟩ hp' he
    have hp := KeyMap.mem_toList_iff.mp hp
    have hp' := KeyMap.mem_toList_iff.mp hp'
    obtain rfl := hs.distinct k k' p p' hp hp' he
    rw [hp] at hp'
    cases hp'
    rfl
  refine List.nodup_append.mpr ⟨hh, List.nodup_singleton _, ?_⟩
  rintro id hid _ ha rfl
  obtain ⟨k, p, hp, rfl⟩ := mem_handlers.mp hid
  exact hs.apart k p hp (List.mem_singleton.mp ha)

/-- The targets of the registries, each with its recorded owner. -/
def ownedTargets (d : Discoverer) : List (HandlerId × String) :=
  d.roster.registries.toList.flatMap fun e => e.2.toList.map fun x => (x.2, x.1)

/-- The targets of the installed handlers, each with its handler. -/
def heldTargets (d : Discoverer) : List (HandlerId × String) :=
  d.installed.flatMap fun id => (d.roster.entries id).keys.map fun target => (id, target)

theorem mem_ownedTargets {d : Discoverer} {id : HandlerId} {target : String} :
    (id, target) ∈ d.ownedTargets ↔
      ∃ registry, d.roster.owner? registry target = some id := by
  simp only [ownedTargets, List.mem_flatMap, List.mem_map, Prod.exists, Prod.mk.injEq,
    Roster.owner?, Roster.owners]
  constructor
  · rintro ⟨registry, m, hm, t, i, ht, rfl, rfl⟩
    refine ⟨registry, ?_⟩
    rw [KeyMap.mem_toList_iff.mp hm]
    exact KeyMap.mem_toList_iff.mp ht
  · rintro ⟨registry, ho⟩
    cases hm : d.roster.registries.get? registry with
    | none =>
      rw [hm] at ho
      cases ho
    | some m =>
      rw [hm] at ho
      exact ⟨registry, m, KeyMap.mem_toList_iff.mpr hm, target, id, KeyMap.mem_toList_iff.mpr ho,
        rfl, rfl⟩

theorem mem_heldTargets {d : Discoverer} {id : HandlerId} {target : String} :
    (id, target) ∈ d.heldTargets ↔ id ∈ d.installed ∧ d.roster.holds id target = true := by
  simp only [heldTargets, List.mem_flatMap, List.mem_map, Prod.mk.injEq, KeyMap.mem_keys_iff,
    Roster.holds, KeyMap.contains_iff]
  constructor
  · rintro ⟨i, hi, t, ht, rfl, rfl⟩
    exact ⟨hi, ht⟩
  · rintro ⟨hi, ht⟩
    exact ⟨id, hi, target, ht, rfl, rfl⟩

theorem owner?_of_mem_registry {d : Discoverer} {registry target : String} {m : KeyMap HandlerId}
    {id : HandlerId} (hm : (registry, m) ∈ d.roster.registries.toList)
    (ht : (target, id) ∈ m.toList) : d.roster.owner? registry target = some id := by
  rw [Roster.owner?, Roster.owners, KeyMap.mem_toList_iff.mp hm]
  exact KeyMap.mem_toList_iff.mp ht

theorem Sound.nodup_ownedTargets {d : Discoverer} (hs : d.Sound) : d.ownedTargets.Nodup := by
  refine List.nodup_flatMap.mpr ⟨?_, ?_⟩
  · rintro ⟨registry, m⟩ -
    refine List.Nodup.map_on ?_ (nodup_toList m)
    rintro ⟨t, i⟩ - ⟨t', i'⟩ - he
    cases he
    rfl
  · -- an owner is attached to one registry only
    refine d.roster.registries.sorted.imp_of_mem ?_
    rintro ⟨registry, m⟩ ⟨registry', m'⟩ hm hm' hlt
    rintro ⟨id, target⟩ hx hx'
    simp only [List.mem_map, Prod.exists, Prod.mk.injEq] at hx hx'
    obtain ⟨t, i, ht, rfl, rfl⟩ := hx
    obtain ⟨t', i', ht', rfl, rfl⟩ := hx'
    have ho := ((hs.owner?_iff _ _ _).mp (owner?_of_mem_registry hm ht)).2.1
    have ho' := ((hs.owner?_iff _ _ _).mp (owner?_of_mem_registry hm' ht')).2.1
    have heq : registry = registry' := Option.some.inj (ho.symm.trans ho')
    exact String.lt_irrefl _ (heq ▸ hlt)

theorem Sound.nodup_heldTargets {d : Discoverer} (hs : d.Sound) : d.heldTargets.Nodup := by
  refine List.nodup_flatMap.mpr ⟨?_, ?_⟩
  · rintro id -
    refine List.Nodup.map_on ?_ (KeyMap.keys_nodup _)
    rintro t - t' - he
    cases he
    rfl
  · refine hs.nodup_installed.imp ?_
    rintro id id' hne ⟨i, t⟩ hx hx'
    simp only [List.mem_map, Prod.mk.injEq] at hx hx'
    obtain ⟨-, -, rfl, -⟩ := hx
    obtain ⟨-, -, rfl, -⟩ := hx'
    exact hne rfl

theorem length_targets (d : Discoverer) : d.targets.length = d.heldTargets.length := by
  simp [targets, heldTargets, targetsOf, installed, handlers, List.length_flatMap,
    List.map_map, Function.comp_def, KeyMap.keys]

/-- The registries list as many targets as the installed handlers hold. -/
theorem Sound.sum_registry_sizes {d : Discoverer} (hs : d.Sound) :
    (d.roster.registries.map (·.size)).values.sum = d.targets.length := by
  have hperm : d.ownedTargets.Perm d.heldTargets := by
    refine (List.perm_ext_iff_of_nodup hs.nodup_ownedTargets hs.nodup_heldTargets).mpr ?_
    rintro ⟨id, target⟩
    rw [mem_ownedTargets, mem_heldTargets]
    constructor
    · rintro ⟨registry, ho⟩
      obtain ⟨hid, -, hh⟩ := (hs.owner?_iff _ _ _).mp ho
      exact ⟨hid, hh⟩
    · rintro ⟨hid, hh⟩
      obtain ⟨h, -, hg, -⟩ := Roster.holds_iff.mp hh
      have hreg := Roster.registryOf?_eq_some_iff.mpr ⟨h, hg, rfl⟩
      exact ⟨h.registry, (hs.owner?_iff _ _ _).mpr ⟨hid, hreg, hh⟩⟩
  have hsum : (d.roster.registries.map (·.size)).values.sum = d.ownedTargets.length := by
    simp [ownedTargets, KeyMap.values, KeyMap.map, KeyMap.size, List.length_flatMap,
      List.map_map, Function.comp_def]
  rw [hsum, hperm.length_eq, length_targets]

/-! ## Every run -/

/-- In every state of a run a registry records an owner for a target exactly where an installed
    handler attached to it holds the target, and then that handler; no two handlers of one
    registry hold the same target; and the registries count as many targets as there are. -/
theorem owner?_iff_installed_holds (settings : Settings) (nodeName : String)
    (ops : List Operation) :
    let d := (start settings nodeName).run ops
    (∀ registry target id, d.roster.owner? registry target = some id ↔
      id ∈ d.installed ∧ d.roster.registryOf? id = some registry ∧
        d.roster.holds id target = true) ∧
    (∀ a ∈ d.installed, ∀ b ∈ d.installed, d.roster.registryOf? a = d.roster.registryOf? b →
      ∀ target, d.roster.holds a target = true → d.roster.holds b target = true → a = b) ∧
    (d.roster.registries.map (·.size)).values.sum = d.targets.length := by
  intro d
  have hs : d.Sound := sound_run settings nodeName ops
  refine ⟨hs.owner?_iff, ?_, hs.sum_registry_sizes⟩
  intro a _ b _ hab target ha hb
  exact hs.consistent.eq_of_holds hab ha hb

end ScrapeDiscovery.Discoverer

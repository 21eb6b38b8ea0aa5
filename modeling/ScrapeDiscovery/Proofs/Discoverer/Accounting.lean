import ScrapeDiscovery.Proofs.Discoverer.Holding

/-!
# Live providers belong to held targets

A provider is added when a handler publishes a target, and it is deleted when the
target is given up, if the registry still records the handler as the owner. So a
provider would stay behind for good if ownership were ever lost while a target is
held. On a consistent roster that does not happen: whatever is given up takes its
provider with it, and every live provider is accounted for by a handler that holds
the target it is named after.

Results:
* `Roster.Accounted.withdrawal`, `Roster.Accounted.advance`: what the steps of the two phases
  keep.
* `Sound.accounted_run`: every live provider stays accounted for.
* `Sound.catalog_deleteAll`, `Sound.owners_deleteAll`: nothing is left once everything was
  deleted.
* `live_provider_held`: both in every state of a run.
-/

namespace ScrapeDiscovery

namespace Roster

/-- Every live provider is named after its factory and a target that a handler with this factory
    holds. -/
def Accounted (r : Roster) : Prop :=
  ∀ k p, r.catalog.get? k = some p → p.name = k ∧
    ∃ id factory target, r.factory? id = some factory ∧ r.holds id target = true ∧
      k = providerName factory.factoryName target

variable {r r' : Roster}

/-! ## Withdrawing -/

/-- Where every holder goes on holding what it held, and no provider was added, all providers stay
    accounted for. -/
theorem Accounted.of_holds (ha : r.Accounted)
    (hcatalog : ∀ k, r'.catalog.get? k = r.catalog.get? k)
    (hfactory : ∀ id target, r.holds id target = true → r'.factory? id = r.factory? id)
    (hholds : ∀ id target, r.holds id target = true → r'.holds id target = true) :
    r'.Accounted := by
  intro k p hk
  rw [hcatalog] at hk
  obtain ⟨hname, id, factory, target, hf, hh, rfl⟩ := ha k p hk
  exact ⟨hname, id, factory, target, (hfactory id target hh).trans hf, hholds id target hh, rfl⟩

/-- A handler takes the providers of all targets that it gives up with them. -/
theorem Accounted.dismiss (hc : r.Consistent) (ha : r.Accounted) (id : HandlerId)
    (p : String → Bool) : (r.dismiss id p).Accounted := by
  intro k q hk
  have hold : r.catalog.get? k = some q := by
    cases hid : r.handler? id with
    | none =>
      rw [Roster.dismiss, picked_of_handler?_eq_none hid] at hk
      exact hk
    | some h =>
      rw [catalog_dismiss hc hid] at hk
      split_ifs at hk
      exact hk
  obtain ⟨hname, i, factory, target, hf, hh, rfl⟩ := ha k q hold
  refine ⟨hname, i, factory, target, ?_, ?_, rfl⟩
  · rw [((dismiss_retreat r id p).keeps hc).factory?_eq]
    exact hf
  · rw [holds_dismiss]
    refine ⟨hh, ?_⟩
    rintro ⟨rfl, hp⟩
    -- the provider of a target that is given up is not live any longer
    obtain ⟨h, hid, rfl⟩ := factory?_eq_some_iff.mp hf
    rw [catalog_dismiss hc hid, if_pos ⟨target, mem_picked.mpr ⟨hh, hp⟩, rfl⟩] at hk
    cases hk

theorem Accounted.withdrawal (hc : r.Consistent) (ha : r.Accounted) (hw : Withdrawal r r') :
    r'.Accounted := by
  cases hw with
  | retreat h =>
    cases h with
    | note log => exact ha
    | dismiss id p log => exact ha.dismiss hc id p
  | shut id =>
    refine ha.of_holds (fun _ => rfl) (fun i _ _ => factory?_shut r id i) fun i target hh => ?_
    rw [holds_shut]
    exact hh
  | @add h hempty =>
    refine ha.of_holds (fun k => by rw [catalog_add]) (fun i _ hh => ?_) fun i target hh => ?_
    · exact factory?_add_of_ne r h (ne_nextId_of_holds hh)
    · rw [holds_iff_encoding, encoding_add_empty r hempty, ← holds_iff_encoding]
      exact hh

/-! ## Publishing -/

theorem Accounted.commit (ha : r.Accounted) {id : HandlerId} {h : TargetHandler}
    (hid : r.handler? id = some h) (target : String) (config : ScrapeConfig) :
    (r.commit id h target config).Accounted := by
  intro k p hk
  rw [catalog_commit] at hk
  split_ifs at hk with hnew
  · cases hk
    have hnow := (holds_commit hid target config id target).mpr (Or.inr ⟨rfl, rfl⟩)
    refine ⟨rfl, id, h.factory, target, ?_, hnow, hnew⟩
    rw [factory?_commit hid]
    exact factory?_eq_some_iff.mpr ⟨h, hid, rfl⟩
  · obtain ⟨hname, i, factory, target', hf, hh, rfl⟩ := ha k p hk
    refine ⟨hname, i, factory, target', ?_, (holds_commit hid _ _ _ _).mpr (Or.inl hh), rfl⟩
    rw [factory?_commit hid]
    exact hf

theorem Accounted.advance (ha : r.Accounted) (hadv : Advance r r') : r'.Accounted := by
  cases hadv with
  | note log mishaps => exact ha
  | publish resource log hid _ _ _ _ => exact ha.commit hid resource.targetName _

theorem Accounted.phases (hc : r.Consistent) (ha : r.Accounted) (hp : Phases r r') :
    r'.Accounted := by
  obtain ⟨mid, hw, hadv⟩ := hp
  obtain ⟨hmid, hacc⟩ :=
    Withdrawals.keep (fun _ _ hc ha hw => ha.withdrawal hc hw) hc ha hw
  exact (Advances.keep (fun _ _ _ ha hadv => ha.advance hadv) hmid hacc hadv).2

end Roster

namespace Discoverer

/-! ## Every run -/

theorem accounted_start (settings : Settings) (nodeName : String) :
    (start settings nodeName).roster.Accounted := by
  intro k p hk
  rw [show (start settings nodeName).roster.catalog = ∅ from Roster.catalog_add _ _] at hk
  cases hk

theorem Sound.accounted_run {d : Discoverer} (hs : d.Sound) (ha : d.roster.Accounted)
    (ops : List Operation) : (d.run ops).roster.Accounted := by
  induction ops generalizing d with
  | nil => exact ha
  | cons op ops ih => exact ih (hs.step op) (ha.phases hs.consistent (hs.step_phases op))

/-- Without any pipeline nothing is live where nothing is held. -/
theorem Sound.catalog_deleteAll {d : Discoverer} (hs : d.Sound) (ha : d.roster.Accounted) :
    d.deleteAll.roster.catalog = ∅ := by
  have hs' : d.deleteAll.Sound := hs.step .deleteAll
  have ha' : d.deleteAll.roster.Accounted := ha.phases hs.consistent (hs.step_phases .deleteAll)
  refine KeyMap.ext_get? fun k => Option.eq_none_iff_forall_ne_some.mpr fun p hk => ?_
  obtain ⟨-, id, -, target, -, hh, -⟩ := ha' k p hk
  exact hs.not_holds_deleteAll target ⟨id, hs'.mem_installed_of_holds hh, hh⟩

theorem Sound.owners_deleteAll {d : Discoverer} (hs : d.Sound) (registry : String) :
    d.deleteAll.roster.owners registry = ∅ := by
  have hs' : d.deleteAll.Sound := hs.step .deleteAll
  refine KeyMap.ext_get? fun target => Option.eq_none_iff_forall_ne_some.mpr fun id ho => ?_
  obtain ⟨hid, -, hh⟩ := (hs'.owner?_iff registry target id).mp ho
  exact hs.not_holds_deleteAll target ⟨id, hid, hh⟩

theorem Sound.targets_deleteAll {d : Discoverer} (hs : d.Sound) : d.deleteAll.targets = [] :=
  List.eq_nil_iff_forall_not_mem.mpr fun t ht =>
    hs.not_holds_deleteAll t.name (exists_mem_targets_iff.mp ⟨t, ht, rfl⟩)

/-- In every state of a run each live provider is named after the factory of an installed handler
    and a target that this handler holds. Deleting everything then leaves no rule, no target, no
    recorded owner and no live provider. -/
theorem live_provider_held (settings : Settings) (nodeName : String) (ops : List Operation) :
    let d := (start settings nodeName).run ops
    (∀ k p, d.roster.catalog.get? k = some p → p.name = k ∧
      ∃ id ∈ d.installed, ∃ factory target, d.roster.factory? id = some factory ∧
        d.roster.holds id target = true ∧ k = providerName factory.factoryName target) ∧
    d.deleteAll.pipelines = ∅ ∧ d.deleteAll.targets = [] ∧
      (∀ registry, d.deleteAll.roster.owners registry = ∅) ∧ d.deleteAll.roster.catalog = ∅ := by
  intro d
  have hs : d.Sound := sound_run settings nodeName ops
  have ha : d.roster.Accounted :=
    (sound_start settings nodeName).accounted_run (accounted_start settings nodeName) ops
  refine ⟨fun k p hk => ?_, d.pipelines_deleteAll, hs.targets_deleteAll, hs.owners_deleteAll,
    hs.catalog_deleteAll ha⟩
  obtain ⟨hname, id, factory, target, hf, hh, hk⟩ := ha k p hk
  exact ⟨hname, id, hs.mem_installed_of_holds hh, factory, target, hf, hh, hk⟩

end Discoverer

end ScrapeDiscovery

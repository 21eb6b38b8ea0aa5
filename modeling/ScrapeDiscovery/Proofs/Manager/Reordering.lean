import ScrapeDiscovery.Proofs.Discoverer.Commuting
import ScrapeDiscovery.Proofs.Manager.Driving

/-!
# The order of a replay does not matter

A manager remembers one resource under each target name. So the resources that are taken
in once more when the rules have changed have pairwise different targets, and the
outcome is the same in whatever order they come: the same targets with the same
encodings, the same owners and the same live providers. Only what is told of it, and
when, may differ.

Results:
* `Sound.nodup_snapshot`: the resources of a replay have pairwise different targets.
* `run_replays`: a replay as reports to the discoverer.
* `reports_commute`: reports about different targets in either order, and a replay in any order.
-/

namespace ScrapeDiscovery.Manager

variable {m : Manager}

/-- What is remembered has pairwise different targets. -/
theorem Sound.nodup_cache (hs : m.Sound) : (m.cache.values.map Resource.targetName).Nodup := by
  have hkeys : m.cache.values.map Resource.targetName = m.cache.keys := by
    rw [KeyMap.values, KeyMap.keys, List.map_map]
    refine List.map_congr_left fun e he => ?_
    exact hs.keyed e.1 e.2 (KeyMap.mem_toList_iff.mp he)
  rw [hkeys]
  exact m.cache.keys_nodup

theorem Sound.nodup_snapshot (hs : m.Sound) : (m.snapshot.map Resource.targetName).Nodup :=
  hs.nodup_cache.sublist (List.filter_sublist.map _)

/-- Taking resources in once more is reporting them to the discoverer. -/
theorem run_replays (m : Manager) (rs : List Resource) :
    m.run (rs.map .replay) =
      m.onDiscoverer (·.run ((rs.map (Report.present m.leading)).map Report.operation)) := by
  induction rs generalizing m with
  | nil => rfl
  | cons r rs ih => exact ih (m.replay r)

theorem resync_eq_of_changed (hchanged : m.resync.1 = true) :
    m.resync.2 = m.adopt.run (m.adopt.snapshot.map .replay) := by
  rw [resync_eq, if_pos]
  simp only [resync] at hchanged
  split at hchanged
  · assumption
  · cases hchanged

/-- Two reports about different targets, in whatever state of a run, lead to the same state in
    either order, but for what they told; and each leaves the encodings, the owners and the live
    providers of all other targets alone. So when changed settings are applied, the resources that
    are remembered can be taken in once more in any order. -/
theorem reports_commute (settings : Settings) (nodeName : String) :
    (∀ (ops : List Discoverer.Operation) (a b : Report), a.target ≠ b.target →
      let d := (Discoverer.start settings nodeName).run ops
      ((d.step a.operation).step b.operation).afresh =
          ((d.step b.operation).step a.operation).afresh ∧
        ∀ target ≠ a.target,
          (∀ id, (d.step a.operation).roster.encoding id target = d.roster.encoding id target) ∧
          (∀ registry, (d.step a.operation).roster.owner? registry target =
            d.roster.owner? registry target) ∧
          ∀ factory : Family,
            (d.step a.operation).roster.catalog.get? (providerName factory.factoryName target) =
              d.roster.catalog.get? (providerName factory.factoryName target)) ∧
    ∀ (daemon scrapeCluster : Bool) (moves : List Move) (order : List Resource),
      let m := (create settings nodeName daemon scrapeCluster).run moves
      m.resync.1 = true → order.Perm m.adopt.snapshot →
        m.resync.2.onDiscoverer (·.afresh) =
          (m.adopt.run (order.map .replay)).onDiscoverer (·.afresh) := by
  constructor
  · intro ops a b hne d
    have hf : d.Filed := Discoverer.filed_run settings nodeName ops
    refine ⟨(hf.step_comm hne).afresh_eq, fun target ht => ?_⟩
    have hframe := (hf.agreeOn_step a).roster.symm
    refine ⟨fun id => hframe.encoding id target ht, fun registry => hframe.owner registry target ht,
      fun factory => hframe.provider _ fun factory' target' he => ?_⟩
    obtain ⟨-, rfl⟩ := providerName_inj.mp he
    exact ht
  · intro daemon scrapeCluster moves order m hchanged hperm
    have hs : m.adopt.Sound :=
      ((sound_create settings nodeName daemon scrapeCluster).run moves).move .adopt
    have hf : m.adopt.agent.discoverer.Filed := by
      obtain ⟨ops, hops⟩ :=
        exists_run_eq_discoverer settings nodeName daemon scrapeCluster (moves ++ [.adopt])
      rw [run_append] at hops
      exact hops ▸ Discoverer.filed_run settings nodeName ops
    have hreports := hperm.map (Report.present m.adopt.leading)
    have hnodup : ((order.map (Report.present m.adopt.leading)).map Report.target).Nodup := by
      rw [List.map_map]
      exact ((hperm.map Resource.targetName).nodup_iff).mpr hs.nodup_snapshot
    rw [resync_eq_of_changed hchanged, run_replays, run_replays]
    exact congrArg (fun d => m.adopt.onDiscoverer fun _ => d)
      (hf.run_perm hreports hnodup).afresh_eq.symm

/-- One pod is reported and another one is gone, and two remembered pods are taken in once more
    in the other order. -/
theorem same_pods_in_either_order :
    let redis : String → Rule := fun name =>
      { name, pluginType := "telegraf/redis", selectors := { images := ["redis:*"] } }
    let pod : String → Resource := fun name =>
      { kind := .pod, ip := "10.0.0.1", object := { name, ns := "ns" }
        containers := [{ image := "redis:6", ports := [] }] }
    let d := (Discoverer.start {} "node-1").run
      [.handle true (redis "a"), .discover true (pod "y")]
    let a := Report.present true (pod "x")
    let b := Report.gone (pod "y")
    let m := (create { rules := [redis "a"] } "node-1" false true).run
      [.start, .apply .pod (.applied (pod "x")), .apply .pod (.applied (pod "y")),
        .changeSettings (·.setWired { rules := [redis "b"] })]
    (a.target ≠ b.target ∧
      ((d.step a.operation).step b.operation).targets.map (·.name) = ["pod/ns/x"] ∧
      ((d.step a.operation).step b.operation).afresh =
        ((d.step b.operation).step a.operation).afresh) ∧
    m.resync.1 = true ∧ [pod "y", pod "x"].Perm m.adopt.snapshot ∧
      m.resync.2.agent.discoverer.targets.map (·.rule) = ["b", "b"] ∧
      m.resync.2.onDiscoverer (·.afresh) =
        (m.adopt.run ([pod "y", pod "x"].map .replay)).onDiscoverer (·.afresh) := by
  intro redis pod d a b m
  have hne : a.target ≠ b.target := by decide
  have hheld : ((d.step a.operation).step b.operation).targets.map (·.name) = ["pod/ns/x"] := by
    decide +kernel
  have hchanged : m.resync.1 = true := by decide +kernel
  have hsnapshot : m.adopt.snapshot = [pod "x", pod "y"] := by decide +kernel
  have hperm : [pod "y", pod "x"].Perm m.adopt.snapshot := hsnapshot ▸ List.Perm.swap _ _ []
  have hrules : m.resync.2.agent.discoverer.targets.map (·.rule) = ["b", "b"] := by decide +kernel
  refine ⟨⟨hne, hheld, ?_⟩, hchanged, hperm, hrules, ?_⟩
  · exact ((reports_commute {} "node-1").1 _ a b hne).1
  · exact (reports_commute _ "node-1").2 false true _ _ hchanged hperm

end ScrapeDiscovery.Manager

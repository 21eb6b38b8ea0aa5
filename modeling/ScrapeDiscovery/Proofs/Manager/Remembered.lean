import ScrapeDiscovery.Proofs.Manager.Moves

/-!
# Held targets are remembered

Resources are forgotten when they are deleted, when a complete list of their kind
does not have them, when services are no longer watched and when the manager
stops. Each of these gives up the targets of what it forgets, whatever rules are
installed then. Adopting settings and discovering the API server make nothing else
held, so as long as resources are taken in once more only by the resync that they
belong to, a target is held only while its resource is remembered.

Results:
* `Sound.run_tidies`: moves, none of which replays a resource on its own.
* `exists_remembered_of_held`: every run of such moves, and what one more move forgets.
-/

namespace ScrapeDiscovery.Manager

theorem Sound.run_tidies {m : Manager} (hs : m.Sound) {moves : List Move}
    (hmoves : ∀ r, Move.replay r ∉ moves) : Tidies m (m.run moves) := by
  induction moves generalizing m with
  | nil => exact .refl hs
  | cons mv moves ih =>
    have hstep : Tidies m (m.move mv) := by
      refine hs.move_tidies fun r hr => ?_
      rw [hr] at hmoves
      exact absurd List.mem_cons_self (hmoves r)
    exact hstep.trans (ih hstep.sound fun r hr => hmoves r (List.mem_cons_of_mem mv hr))

/-- Where nothing is held at first, everything that is held in the end is remembered. -/
theorem Tidies.remembers {m m' : Manager} (ht : Tidies m m') (hm : ∀ target, ¬m.Holds target)
    {target : String} (hne : target ≠ Resource.apiServer.targetName) (hh : m'.Holds target) :
    m'.Remembers target :=
  (ht.holds target hne hh).resolve_right fun h => hm target h.1

/-- As long as resources are replayed only by the resync that they belong to, in whatever order
    things happen to a manager, resources are remembered under the names of their targets, every
    target that is held, other than the one of the API server, is that of a remembered resource,
    and whatever resource one more move forgets, its target is not held after that move. -/
theorem exists_remembered_of_held (settings : Settings) (nodeName : String)
    (daemon scrapeCluster : Bool) (moves : List Move) (hmoves : ∀ r, Move.replay r ∉ moves) :
    let m := (create settings nodeName daemon scrapeCluster).run moves
    (∀ k r, m.cache.get? k = some r → r.targetName = k) ∧
    (∀ t ∈ m.agent.discoverer.targets, t.name ≠ Resource.apiServer.targetName →
      ∃ r, m.cache.get? t.name = some r) ∧
    ∀ mv, (∀ r, mv ≠ .replay r) → ∀ k r, m.cache.get? k = some r →
      (m.move mv).cache.get? k = none → k ≠ Resource.apiServer.targetName →
      ∀ t ∈ (m.move mv).agent.discoverer.targets, t.name ≠ k := by
  intro m
  have hstart := sound_create settings nodeName daemon scrapeCluster
  have hnothing := not_holds_create settings nodeName daemon scrapeCluster
  have htidies : Tidies _ m := hstart.run_tidies hmoves
  refine ⟨htidies.sound.keyed, fun t ht hne => ?_, fun mv hmv k r _ hgone hne t ht hname => ?_⟩
  · have hheld : m.Holds t.name := Discoverer.exists_mem_targets_iff.mp ⟨t, ht, rfl⟩
    exact htidies.sound.remembers_iff.mp (htidies.remembers hnothing hne hheld)
  · have hmove : Tidies m (m.move mv) :=
      htidies.sound.move_tidies fun r hr => absurd hr (hmv r)
    have hheld : (m.move mv).Holds k := Discoverer.exists_mem_targets_iff.mp ⟨t, ht, hname⟩
    obtain ⟨r', hr'⟩ :=
      hmove.sound.remembers_iff.mp ((htidies.trans hmove).remembers hnothing hne hheld)
    rw [hgone] at hr'
    cases hr'

/-- Two pods are discovered and then listed without the first one, whose target is not held
    afterwards; the one of the second pod still is, and the second pod is remembered. -/
theorem remembered_after_relisting :
    let redis : Rule :=
      { name := "a", pluginType := "telegraf/redis", selectors := { images := ["redis:*"] } }
    let pod : String → Resource := fun name =>
      { kind := .pod, ip := "10.0.0.1", object := { name, ns := "ns" }
        containers := [{ image := "redis:6", ports := [] }] }
    let m := (create { rules := [redis] } "node-1" false true).run
      [.start, .apply .pod (.applied (pod "x")), .apply .pod (.applied (pod "y"))]
    let m' := m.move (.apply .pod (.restarted [pod "y"]))
    (∃ t ∈ m.agent.discoverer.targets, t.name = "pod/ns/x") ∧
      (∀ t ∈ m'.agent.discoverer.targets, t.name ≠ "pod/ns/x") ∧
      ∃ t ∈ m.agent.discoverer.targets, t.name = "pod/ns/y" ∧
        ∃ r, m.cache.get? t.name = some r := by
  intro redis pod m m'
  have hheld : ∀ target ∈ ["pod/ns/x", "pod/ns/y"],
      ∃ t ∈ m.agent.discoverer.targets, t.name = target := by
    decide +kernel
  have hwhole : ∀ r, Move.replay r ∉
      [.start, .apply .pod (.applied (pod "x")), .apply .pod (.applied (pod "y"))] := by
    intro r hr
    simp at hr
  obtain ⟨-, hremembered, hforgotten⟩ :=
    exists_remembered_of_held { rules := [redis] } "node-1" false true _ hwhole
  refine ⟨hheld _ (by decide), ?_, ?_⟩
  · have hold : m.cache.get? "pod/ns/x" = some (pod "x") := by decide +kernel
    have hgone : m'.cache.get? "pod/ns/x" = none := by decide +kernel
    exact hforgotten _ (fun r hr => by cases hr) _ _ hold hgone (by decide)
  · obtain ⟨t, ht, hname⟩ := hheld "pod/ns/y" (by decide)
    refine ⟨t, ht, hname, hremembered t ht ?_⟩
    rw [hname]
    decide

end ScrapeDiscovery.Manager

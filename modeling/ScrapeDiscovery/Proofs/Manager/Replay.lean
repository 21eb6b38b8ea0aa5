import Mathlib.Data.List.Infix
import ScrapeDiscovery.Proofs.Manager.Moves

/-!
# Replaying resources side by side with events

Changed settings are adopted first, and the resources that are remembered at that
moment are then taken in once more, one by one. Events of the watches may come in
between. A resource that one of them deletes is forgotten with its target, but if
it has not been replayed yet, the replay makes the target held again, and nothing
gives it up until the resource is reported anew.

Results:
* `Sound.staleReplay_of_not_remembers`: a target without its resource comes from such a replay.
* `remembers_iff_not_staleReplay`: exactly when a held target has its resource, in every order of
  moves.
-/

namespace ScrapeDiscovery.Manager

/-- Among moves, a resource with the given target was taken in once more after it had been
    forgotten, and it has not been remembered since. -/
def StaleReplay (m : Manager) (moves : List Move) (target : String) : Prop :=
  ∃ xs r ys, moves = xs ++ .replay r :: ys ∧ r.targetName = target ∧
    ∀ zs, zs <+: ys → ¬(m.run (xs ++ .replay r :: zs)).Remembers target

theorem replay_remembers (m : Manager) (r : Resource) (target : String) :
    (m.replay r).Remembers target ↔ m.Remembers target := Iff.rfl

/-- Only the replay of a resource with that target can make a target held without its resource. -/
theorem Sound.holds_move {m : Manager} (hs : m.Sound) {mv : Move} {target : String}
    (hmv : ∀ r, mv = .replay r → r.targetName ≠ target)
    (hne : target ≠ Resource.apiServer.targetName) (hh : (m.move mv).Holds target)
    (hn : ¬(m.move mv).Remembers target) : m.Holds target ∧ ¬m.Remembers target := by
  by_cases hreplay : ∃ r, mv = .replay r
  · obtain ⟨r, rfl⟩ := hreplay
    exact ⟨(hs.replay_holds (hmv r rfl).symm).mp hh, mt (replay_remembers m r target).mpr hn⟩
  · have htidies := hs.move_tidies fun r hr => absurd ⟨r, hr⟩ hreplay
    exact (htidies.holds target hne hh).resolve_left hn

theorem StaleReplay.concat {m : Manager} {moves : List Move} {target : String}
    (hstale : m.StaleReplay moves target) {mv : Move}
    (hn : ¬(m.run (moves ++ [mv])).Remembers target) :
    m.StaleReplay (moves ++ [mv]) target := by
  obtain ⟨xs, r, ys, rfl, hr, hys⟩ := hstale
  refine ⟨xs, r, ys ++ [mv], by simp, hr, fun zs hzs => ?_⟩
  rcases List.prefix_concat_iff.mp hzs with rfl | hzs
  · simpa using hn
  · exact hys zs hzs

/-- A target that is held without its resource was replayed after the resource had been
    forgotten. -/
theorem Sound.staleReplay_of_not_remembers {m : Manager} (hs : m.Sound) {target : String}
    (hne : target ≠ Resource.apiServer.targetName)
    (hstart : m.Holds target → m.Remembers target) {moves : List Move}
    (hh : (m.run moves).Holds target) (hn : ¬(m.run moves).Remembers target) :
    m.StaleReplay moves target := by
  induction moves using List.reverseRecOn with
  | nil => exact absurd (hstart hh) hn
  | append_singleton moves mv ih =>
    have hrun : m.run (moves ++ [mv]) = (m.run moves).move mv := run_append m moves [mv]
    by_cases hmv : ∀ r, mv = .replay r → r.targetName ≠ target
    · rw [hrun] at hh
      have hbefore := (hs.run moves).holds_move hmv hne hh (hrun ▸ hn)
      exact (ih hbefore.1 hbefore.2).concat hn
    · -- the last move is the replay itself
      simp only [not_forall, not_not] at hmv
      obtain ⟨r, rfl, hr⟩ := hmv
      refine ⟨moves, r, [], rfl, hr, fun zs hzs => ?_⟩
      rw [List.prefix_nil.mp hzs]
      exact hn

theorem StaleReplay.not_remembers {m : Manager} {moves : List Move} {target : String}
    (hstale : m.StaleReplay moves target) : ¬(m.run moves).Remembers target := by
  obtain ⟨xs, r, ys, rfl, -, hys⟩ := hstale
  exact hys ys (List.prefix_refl ys)

/-- In whatever order events, replays and all the rest take place, a target that is held, other
    than the one of the API server, is the target of a remembered resource, unless it was replayed
    after its resource had been forgotten and the resource was not reported since. -/
theorem remembers_iff_not_staleReplay (settings : Settings) (nodeName : String)
    (daemon scrapeCluster : Bool) (moves : List Move) :
    let start := create settings nodeName daemon scrapeCluster
    let m := start.run moves
    ∀ t ∈ m.agent.discoverer.targets, t.name ≠ Resource.apiServer.targetName →
      ((∃ r ∈ m.cache.values, r.targetName = t.name) ↔ ¬start.StaleReplay moves t.name) := by
  intro start m t ht hne
  have hs : start.Sound := sound_create settings nodeName daemon scrapeCluster
  have hh : m.Holds t.name := Discoverer.exists_mem_targets_iff.mp ⟨t, ht, rfl⟩
  have hstart : start.Holds t.name → start.Remembers t.name := by
    intro hheld
    obtain ⟨t', ht', -⟩ := Discoverer.exists_mem_targets_iff.mpr hheld
    have hnone : start.agent.discoverer.targets = [] :=
      Discoverer.start_targets settings nodeName
    rw [hnone] at ht'
    cases ht'
  constructor
  · exact fun hrem hstale => hstale.not_remembers hrem
  · intro hfresh
    by_contra hn
    exact hfresh (hs.staleReplay_of_not_remembers hne hstart hh hn)

/-- While changed settings are applied a pod is deleted that has not been replayed yet. In the end
    its target is held, and no resource is remembered. -/
theorem exists_held_without_resource :
    let redis : String → Rule := fun name =>
      { name, pluginType := "telegraf/redis", selectors := { images := ["redis:*"] } }
    let pod : Resource :=
      { kind := .pod, ip := "10.0.0.1", object := { name := "x", ns := "ns" }
        containers := [{ image := "redis:6", ports := [] }] }
    let m := (create { rules := [redis "a"] } "node-1" false true).run
      [.start, .apply .pod (.applied pod),
        .changeSettings (·.setWired { rules := [redis "a", redis "b"] }), .adopt]
    let m' := m.run [.apply .pod (.deleted pod), .replay pod]
    m.snapshot = [pod] ∧ m'.agent.discoverer.targets.map (·.name) = ["pod/ns/x"] ∧
      m'.cache.values = [] := by
  decide +kernel

/-- The target that such a pod leaves behind comes from a stale replay. -/
theorem staleReplay_of_overtaken_pod :
    let redis : String → Rule := fun name =>
      { name, pluginType := "telegraf/redis", selectors := { images := ["redis:*"] } }
    let pod : Resource :=
      { kind := .pod, ip := "10.0.0.1", object := { name := "x", ns := "ns" }
        containers := [{ image := "redis:6", ports := [] }] }
    let start := create { rules := [redis "a"] } "node-1" false true
    let moves : List Move :=
      [.start, .apply .pod (.applied pod),
        .changeSettings (·.setWired { rules := [redis "a", redis "b"] }), .adopt,
        .apply .pod (.deleted pod), .replay pod]
    ∃ t ∈ (start.run moves).agent.discoverer.targets,
      t.name ≠ Resource.apiServer.targetName ∧ start.StaleReplay moves t.name := by
  intro redis pod start moves
  have hleft : ∃ t ∈ (start.run moves).agent.discoverer.targets,
      t.name ≠ Resource.apiServer.targetName ∧
        ∀ r ∈ (start.run moves).cache.values, r.targetName ≠ t.name := by
    decide +kernel
  obtain ⟨t, ht, hne, hgone⟩ := hleft
  have hiff := remembers_iff_not_staleReplay { rules := [redis "a"] } "node-1" false true moves
    t ht hne
  refine ⟨t, ht, hne, ?_⟩
  by_contra hfresh
  obtain ⟨r, hr, hname⟩ := hiff.mpr hfresh
  exact hgone r hr hname

end ScrapeDiscovery.Manager

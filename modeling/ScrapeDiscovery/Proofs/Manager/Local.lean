import ScrapeDiscovery.Proofs.Manager.Steady

/-!
# Managers that leave the cluster alone

A manager that is not to discover what belongs to the cluster never watches services
and does not follow leadership, so all resources that it takes in are pods. But rules
for the API server are installed by it like all others, and whenever the agent leads at
that moment they bring the target of the API server. Nothing takes it away when the
agent no longer leads.

Results:
* `IsLocal.move`: what a move can bring to such a manager.
* `holds_iff_since_asks`: when exactly it holds a target that belongs to the cluster.
-/

namespace ScrapeDiscovery.Manager

/-- What may happen to a manager that is not told from outside to watch services: the watch of pods
    reports pods, and what is taken in was reported by it. -/
def Move.IsLocal : Move → Prop
  | .resume => False
  | .report .pod e => ∀ r ∈ e.resources, r.kind = .pod
  | .apply _ e => ∀ r ∈ e.resources, r.kind = .pod
  | .replay r => r.kind = .pod
  | _ => True

/-- A manager that leaves the cluster alone. -/
structure IsLocal (m : Manager) : Prop where
  carries : m.Carries fun r => r.kind = .pod
  scrapeCluster : m.standing.scrapeCluster = false
  watching : m.standing.watching = false
  follower : m.standing.follower = none

/-- The agent leads, and a rule in effect is for the API server. -/
def Asks (m : Manager) : Prop :=
  m.leading = true ∧ ∃ rule ∈ m.settings.rules, rule.IsForApiServer

/-- A change of a manager that leaves the cluster alone: it still does, and it holds a new target of
    the cluster only if that is the API server's and the agent asks for it. -/
structure LocalStep (m m' : Manager) : Prop where
  isLocal : m'.IsLocal
  gains : ∀ target, IsClusterTarget target → m'.Holds target →
    m.Holds target ∨ target = Resource.apiServer.targetName ∧ m'.Asks

variable {m m' : Manager}

theorem isLocal_create (settings : Settings) (nodeName : String) (daemon : Bool) :
    (create settings nodeName daemon false).IsLocal :=
  have hnone : ∀ w ∈ (none : Option Watch), w.Carries fun r => r.kind = .pod :=
    fun _ h => absurd h (Option.not_mem_none _)
  ⟨⟨sound_create settings nodeName daemon false, fun _ h => absurd h List.not_mem_nil, hnone, hnone,
    fun _ h => absurd h List.not_mem_nil⟩, rfl, rfl, rfl⟩

theorem IsLocal.of_standing (hm : m.IsLocal) (hc : m'.Carries fun r => r.kind = .pod)
    (h : m'.standing = m.standing) : m'.IsLocal :=
  ⟨hc, h ▸ hm.scrapeCluster, h ▸ hm.watching, h ▸ hm.follower⟩

theorem IsLocal.services_eq_none (hm : m.IsLocal) : m.services = none := by
  have hwatching : m.services.isSome = false := hm.watching
  simpa using hwatching

/-- Where all resources are pods, only rules bring a target of the cluster. -/
theorem asks_of_source {target : String} (ht : IsClusterTarget target)
    (hleading : m.leading = true) (hsource : m.Source (fun r => r.kind = .pod) target) :
    target = Resource.apiServer.targetName ∧ m.Asks := by
  rcases hsource with ⟨hname, hrule⟩ | ⟨r, hr, rfl⟩
  · exact ⟨hname, hleading, hrule⟩
  · exact absurd hr (ResourceKind.isClusterScoped_iff.mp ht.isClusterScoped)

theorem asks_of_standing (h : m'.standing = m.standing) : m'.Asks ↔ m.Asks := by
  have hsettings : m'.settings = m.settings := congrArg (·.settings) h
  rw [Asks, Asks, leading_of_standing h, hsettings]

theorem IsLocal.step_of_steady (hm : m.IsLocal) (h : Steady (fun r => r.kind = .pod) m m') :
    LocalStep m m' := by
  refine ⟨hm.of_standing h.carries h.standing, fun target ht hh => ?_⟩
  refine (h.gains target ht hh).imp_right fun hnew => ?_
  rw [asks_of_standing h.standing]
  exact asks_of_source ht hnew.1 hnew.2

theorem IsLocal.step_refl (hm : m.IsLocal) : LocalStep m m := hm.step_of_steady (.refl hm.carries)

theorem IsLocal.runTask_steady (hm : m.IsLocal) (t : ManagerTask) :
    Steady (fun r => r.kind = .pod) m (m.runTask t) := by
  by_cases ht : t = .leadership
  · -- nobody is followed
    have hidle : m.runTask t = m := by
      have hnone : m.follower = none := hm.follower
      rw [ht, Manager.runTask, Manager.runLeadership, hnone]
    rw [hidle]
    exact .refl hm.carries
  · exact hm.carries.runTask_steady ht

theorem IsLocal.settle_steady (hm : m.IsLocal) :
    Steady (fun r => r.kind = .pod) m m.settle := by
  refine settleWithin_keeps (Q := Steady (fun r => r.kind = .pod) m) (fun m' ts h => ?_)
    (fun m' t h => ?_) _ (.refl hm.carries)
  · have hc := h.carries
    exact h.trans (hc.steady_of_eq rfl rfl rfl hc.pods hc.services hc.retired)
  · exact h.trans ((hm.of_standing h.carries h.standing).runTask_steady t)

theorem IsLocal.start_step (hm : m.IsLocal) : LocalStep m m.start := by
  cases hrun : m.running with
  | true =>
    rw [Manager.start, hrun]
    exact hm.step_refl
  | false =>
    let m₀ : Manager := { m with running := true, agent := { m.agent with enabled := true } }
    have hc₀ : m₀.Carries fun r => r.kind = .pod :=
      hm.carries.of_eq rfl rfl hm.carries.pods hm.carries.services hm.carries.retired
    have hm₀ : m₀.IsLocal := ⟨hc₀, hm.scrapeCluster, hm.watching, hm.follower⟩
    have hbegun : LocalStep m₀ m.begun := hm₀.step_of_steady hm.carries.begun_steady
    have hcluster : m.begun.scrapeCluster = false := hbegun.isLocal.scrapeCluster
    rw [start_of_not_running hrun, hcluster]
    exact ⟨hbegun.isLocal, hbegun.gains⟩

theorem IsLocal.stop_step (hm : m.IsLocal) : LocalStep m m.stop := by
  cases hrun : m.running with
  | false =>
    rw [stop_of_not_running hrun]
    exact hm.step_refl
  | true =>
    have hstanding := hm.carries.standing_stop hrun
    refine ⟨⟨hm.carries.stop, ?_, ?_, ?_⟩, fun target _ hh => ?_⟩
    · rw [hstanding]
      exact hm.scrapeCluster
    · rw [hstanding]
    · rw [hstanding]
    · exact absurd hh (hm.carries.sound.not_holds_stop hrun target)

/-- A change beside the discoverer, which may be one of leadership or of the settings. -/
theorem IsLocal.step_of_eq (hm : m.IsLocal) (hc : m'.Carries fun r => r.kind = .pod)
    (hcluster : m'.scrapeCluster = m.scrapeCluster) (hservices : m'.services = m.services)
    (hfollower : m'.follower = m.follower) (hd : m'.agent.discoverer = m.agent.discoverer) :
    LocalStep m m' := by
  refine ⟨⟨hc, hcluster.trans hm.scrapeCluster, ?_, hfollower.trans hm.follower⟩,
    fun target _ hh => ?_⟩
  · exact (congrArg Option.isSome hservices).trans hm.watching
  · rw [Holds, hd] at hh
    exact Or.inl hh

theorem IsLocal.changeLeadership_step (hm : m.IsLocal) (f : Leadership → Leadership) :
    LocalStep m (m.changeLeadership f) := by
  have hc := hm.carries
  have hnone : m.follower = none := hm.follower
  have heq : m.changeLeadership f =
      { m with agent := { m.agent with leadership := f m.agent.leadership } } := by
    rw [Manager.changeLeadership]
    simp only [hnone]
  rw [heq]
  exact hm.step_of_eq (hc.of_eq rfl rfl hc.pods hc.services hc.retired) rfl rfl rfl rfl

theorem IsLocal.changeSettings_step (hm : m.IsLocal) (f : LiveSettings → LiveSettings) :
    LocalStep m (m.changeSettings f) := by
  have hc := hm.carries
  let m' : Manager := { m with agent := { m.agent with live := f m.agent.live } }
  have hchange : m'.Carries fun r => r.kind = .pod :=
    hc.of_eq rfl rfl hc.pods hc.services hc.retired
  unfold Manager.changeSettings
  dsimp only
  split
  · have hwake := hchange.wake_steady .resync
    have hlocal := hm.step_of_eq hchange rfl rfl rfl rfl
    refine ⟨hlocal.isLocal.of_standing hwake.carries hwake.standing, fun target _ hh => ?_⟩
    unfold Manager.wake at hh
    split at hh <;> exact Or.inl hh
  · exact hm.step_of_eq hchange rfl rfl rfl rfl

/-! ## Moves and runs -/

theorem IsLocal.move (hm : m.IsLocal) {mv : Move} (hmv : mv.IsLocal) :
    LocalStep m (m.move mv) := by
  have hc := hm.carries
  cases mv with
  | start => exact hm.start_step
  | stop => exact hm.stop_step
  | resume => exact hmv.elim
  | pause =>
    rw [Manager.move, Manager.pause, hm.services_eq_none]
    exact hm.step_refl
  | report kind e =>
    refine hm.step_of_steady (hc.event_steady fun hwatched => ?_)
    cases kind with
    | pod => exact hmv
    | service => exact absurd hm.services_eq_none hwatched
    | apiServer => exact absurd hm.services_eq_none hwatched
  | endWatch kind => exact hm.step_of_steady (hc.endWatch_steady kind)
  | enqueue kind => exact hm.step_of_steady (hc.enqueue_steady kind)
  | takeNext kind => exact hm.step_of_steady (hc.takeNext_steady kind)
  | apply kind e => exact hm.step_of_steady (hc.apply_steady kind hmv)
  | task t => exact hm.step_of_steady (hm.runTask_steady t)
  | settle => exact hm.step_of_steady hm.settle_steady
  | changeSettings f => exact hm.changeSettings_step f
  | changeLeadership f => exact hm.changeLeadership_step f
  | resync => exact hm.step_of_steady hc.resync_steady
  | adopt => exact hm.step_of_steady hc.adopt_steady
  | replay r => exact hm.step_of_steady (hc.replay_steady hmv)

theorem IsLocal.run (hm : m.IsLocal) {moves : List Move} (hmoves : ∀ mv ∈ moves, mv.IsLocal) :
    (m.run moves).IsLocal := by
  induction moves generalizing m with
  | nil => exact hm
  | cons mv moves ih =>
    have hstep := hm.move (hmoves mv List.mem_cons_self)
    exact ih hstep.isLocal fun mv' hmv' => hmoves mv' (List.mem_cons_of_mem _ hmv')

/-- In whatever order leadership and settings change and events are taken in, a manager that is not
    to discover what belongs to the cluster holds a target of the cluster exactly if it is the one
    of the API server, and if there was a moment when the agent led with a rule for the API server
    in effect and since when the target has been held. -/
theorem holds_iff_since_asks (settings : Settings) (nodeName : String) (daemon : Bool)
    (moves : List Move) (hmoves : ∀ mv ∈ moves, mv.IsLocal) :
    let start := create settings nodeName daemon false
    ∀ target, IsClusterTarget target →
      ((start.run moves).Holds target ↔
        target = Resource.apiServer.targetName ∧
          start.Since moves Asks fun m => m.Holds target) := by
  intro start target ht
  refine ⟨fun hh => ?_, fun h => h.2.now⟩
  have hstart : start.IsLocal := isLocal_create settings nodeName daemon
  induction moves using List.reverseRecOn with
  | nil => exact absurd hh (not_holds_create settings nodeName daemon false target)
  | append_singleton moves mv ih =>
    have hrun : start.run (moves ++ [mv]) = (start.run moves).move mv := run_append _ _ _
    have hbefore : ∀ mv' ∈ moves, mv'.IsLocal := fun mv' hmv' =>
      hmoves mv' (List.mem_append_left _ hmv')
    have hstep := (hstart.run hbefore).move (hmoves mv (List.mem_append_right _ (by simp)))
    rcases hstep.gains target ht (hrun ▸ hh) with hheld | ⟨hname, hasks⟩
    · exact (ih hbefore hheld).imp_right fun hsince => hsince.concat hh
    · exact ⟨hname, since_now (hrun ▸ hasks) hh⟩

/-- A single agent that is not to discover what belongs to the cluster holds the target of the API
    server as soon as it has started. Where a leader is elected, one that has led goes on holding it
    when another agent leads. -/
theorem exists_apiServer_held :
    let apiServer : Rule :=
      { name := "a", pluginType := "prometheus", selectors := { resourceType := "apiserver" } }
    let single := (create { rules := [apiServer] } "node-1" false false).run [.start]
    let elected := (create {} "node-1" true false).run
      [.start, .changeLeadership (·.lead true "node-1"),
        .changeSettings (·.setWired { rules := [apiServer] }), .resync,
        .changeLeadership (·.lead false "node-2"), .settle]
    (single.scrapeCluster = false ∧
      single.agent.discoverer.targets.map (·.name) = [Resource.apiServer.targetName]) ∧
    elected.scrapeCluster = false ∧ elected.leading = false ∧
      elected.agent.discoverer.targets.map (·.name) = [Resource.apiServer.targetName] := by
  decide +kernel

/-- The single agent has asked for that target while it led. -/
theorem since_asks_of_start :
    let apiServer : Rule :=
      { name := "a", pluginType := "prometheus", selectors := { resourceType := "apiserver" } }
    let start := create { rules := [apiServer] } "node-1" false false
    start.Since [.start] Asks fun m => m.Holds Resource.apiServer.targetName := by
  intro apiServer start
  have hheld : ∃ t ∈ (start.run [.start]).agent.discoverer.targets,
      t.name = Resource.apiServer.targetName := by
    decide +kernel
  have hlocal : ∀ mv ∈ [Move.start], mv.IsLocal := by
    intro mv hmv
    rw [List.mem_singleton.mp hmv]
    trivial
  have hiff := holds_iff_since_asks { rules := [apiServer] } "node-1" false [.start] hlocal
    Resource.apiServer.targetName isClusterTarget_apiServer
  exact (hiff.mp (Discoverer.exists_mem_targets_iff.mp hheld)).2

end ScrapeDiscovery.Manager

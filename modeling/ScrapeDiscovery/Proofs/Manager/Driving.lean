import ScrapeDiscovery.Proofs.Manager.Moves

/-!
# What managers do to discoverers

A manager changes its discoverer by the operations of discoverers and in no other way,
whatever happens to the manager. So what holds in every state of a run of operations
holds of the discoverer of every manager.

Results:
* `drives_move`, `drives_run`: every move, and every sequence of moves.
* `exists_run_eq_discoverer`: the discoverer of a manager in every state of a run.
-/

namespace ScrapeDiscovery.Manager

variable {m m' m'' : Manager}

/-- A change after which the discoverer is the same but for some operations. -/
def Drives (m m' : Manager) : Prop :=
  ∃ ops, m'.agent.discoverer = m.agent.discoverer.run ops

theorem drives_of_eq (hd : m'.agent.discoverer = m.agent.discoverer) : Drives m m' := ⟨[], hd⟩

theorem drives_of_step (op : Discoverer.Operation)
    (hd : m'.agent.discoverer = m.agent.discoverer.step op) : Drives m m' := ⟨[op], hd⟩

theorem Drives.trans (h : Drives m m') (h' : Drives m' m'') : Drives m m'' := by
  obtain ⟨ops, hops⟩ := h
  obtain ⟨ops', hops'⟩ := h'
  refine ⟨ops ++ ops', ?_⟩
  rw [hops', hops]
  exact List.foldl_append.symm

theorem drives_foldl {α : Type} {f : Manager → α → Manager} (hf : ∀ m a, Drives m (f m a))
    (m : Manager) (as : List α) : Drives m (as.foldl f m) :=
  as.foldlRecOn f (drives_of_eq rfl) fun m' h a _ => h.trans (hf m' a)

theorem drives_wake (m : Manager) (t : ManagerTask) : Drives m (m.wake t) := by
  unfold wake
  split <;> exact drives_of_eq rfl

/-! ## Events and settings -/

theorem drives_apply (m : Manager) (kind : ResourceKind) (e : ResourceEvent) :
    Drives m (m.apply kind e) := by
  have hdiscover : ∀ (m : Manager) r, Drives m (m.discover r) := fun m r =>
    drives_of_step (.discover m.leading r) rfl
  have hforget : ∀ (m : Manager) r, Drives m (m.forget r) := fun m r =>
    drives_of_step (.deleteResource r) rfl
  cases e with
  | applied r => exact hdiscover m r
  | deleted r => exact hforget m r
  | restarted rs =>
    exact (drives_foldl hforget m (m.gone kind rs)).trans (drives_foldl hdiscover _ rs)

theorem drives_takeIn (m : Manager) (kind : ResourceKind) (es : List ResourceEvent) :
    Drives m (m.takeIn kind es) :=
  drives_foldl (fun m e => drives_apply m kind e) m es

theorem drives_applySettings (m : Manager) (s : Settings) : Drives m (m.applySettings s) :=
  ⟨[.setAnnotationPolicy s.annotationExcludes s.annotationsDisabled, .handleAll m.leading s.rules],
    rfl⟩

theorem drives_adopt (m : Manager) : Drives m m.adopt := by
  simp only [adopt]
  split
  · exact drives_applySettings _ _
  · exact drives_of_eq rfl

theorem drives_replay (m : Manager) (r : Resource) : Drives m (m.replay r) :=
  drives_of_step (.discover m.leading r) rfl

theorem drives_resync (m : Manager) : Drives m m.resync.2 := by
  rw [resync_eq]
  split
  · rw [run, List.foldl_map]
    exact (drives_adopt m).trans (drives_foldl drives_replay _ _)
  · exact drives_adopt m

/-! ## Watches -/

theorem drives_putWatch (m : Manager) (kind : ResourceKind) (w : Watch) :
    Drives m (m.putWatch kind w) := by
  cases kind <;> exact drives_of_eq rfl

theorem drives_beginWatch (m : Manager) (kind : ResourceKind) : Drives m (m.beginWatch kind) :=
  (drives_putWatch m kind _).trans (drives_wake _ _)

theorem drives_changeWatch (m : Manager) (kind : ResourceKind) (f : Watch → Option Watch) :
    Drives m (m.changeWatch kind f).2 := by
  unfold changeWatch
  split
  · exact drives_of_eq rfl
  · next w _ => exact (drives_putWatch m kind w).trans (drives_wake _ _)

theorem drives_enqueue (m : Manager) (kind : ResourceKind) : Drives m (m.enqueue kind) := by
  unfold enqueue
  split
  · exact drives_of_eq rfl
  · exact drives_putWatch m kind _

theorem drives_takeNext (m : Manager) (kind : ResourceKind) : Drives m (m.takeNext kind) := by
  unfold takeNext
  split
  · exact drives_of_eq rfl
  · next w _ => exact (drives_takeIn m w.kind _).trans (drives_putWatch _ kind _)

theorem drives_runWatch (m : Manager) (kind : ResourceKind) : Drives m (m.runWatch kind) := by
  unfold runWatch
  split
  · exact drives_of_eq rfl
  · next w _ =>
    have hturn : Drives m ((m.takeIn w.kind w.due).putWatch kind w.turned) :=
      (drives_takeIn m w.kind w.due).trans (drives_putWatch _ kind w.turned)
    dsimp only
    split
    · exact hturn
    · exact hturn.trans (drives_wake _ _)

/-! ## Resources that belong to the cluster -/

theorem drives_resume (m : Manager) : Drives m m.resume := by
  unfold resume
  split
  · exact drives_of_eq rfl
  · refine (drives_beginWatch m .service).trans ?_
    exact drives_of_step (.refreshApiServer m.leading) rfl

theorem drives_retire (m : Manager) (w : Watch) : Drives m (m.retire w) :=
  drives_wake { m with retired := m.retired ++ [{ w with phase := .ended }] } .retired

theorem drives_pause (m : Manager) : Drives m m.pause := by
  unfold pause
  split
  · exact drives_of_eq rfl
  · next w _ =>
    refine (drives_retire { m with services := none } w).trans ?_
    exact drives_of_step (.deleteClusterScoped _) rfl

/-! ## Tasks -/

theorem drives_runRetired (m : Manager) : Drives m m.runRetired :=
  drives_foldl (f := drain) (fun m w => drives_takeIn m w.kind w.pending) _ m.retired

theorem drives_runResync (m : Manager) : Drives m m.runResync := by
  simp only [runResync]
  split
  · exact drives_resync { m with agent := { m.agent with live := m.agent.live.takeWakeup.2 } }
  · exact drives_of_eq rfl

theorem drives_follow (m : Manager) : Drives m m.follow := by
  unfold follow
  split
  · exact drives_resume m
  · exact drives_pause m

theorem drives_runLeadership (m : Manager) : Drives m m.runLeadership := by
  unfold runLeadership
  split
  · exact drives_of_eq rfl
  · have hfollowing : ∀ f, Drives m { m with follower := f } := fun _ => drives_of_eq rfl
    dsimp only
    split_ifs
    · exact (hfollowing _).trans (drives_follow _)
    · exact hfollowing _
    · exact (hfollowing _).trans (drives_resume _)
    · exact hfollowing _

theorem drives_runTask (m : Manager) (t : ManagerTask) : Drives m (m.runTask t) := by
  cases t with
  | pods => exact drives_runWatch m .pod
  | services => exact drives_runWatch m .service
  | retired => exact drives_runRetired m
  | resync =>
    unfold runTask
    dsimp only
    split
    · exact drives_runResync m
    · exact drives_of_eq rfl
  | leadership => exact drives_runLeadership m

theorem drives_settleWithin (fuel : Nat) (m : Manager) : Drives m (settleWithin fuel m) := by
  induction fuel generalizing m with
  | zero => exact drives_of_eq rfl
  | succ fuel ih =>
    unfold settleWithin
    split
    · exact drives_of_eq rfl
    · next t ts _ => exact (drives_runTask { m with ready := ts } t).trans (ih _)

/-! ## Starting and stopping -/

theorem drives_start (m : Manager) : Drives m m.start := by
  unfold start
  split
  · exact drives_of_eq rfl
  let m₀ : Manager := { m with running := true, agent := { m.agent with enabled := true } }
  let m₁ : Manager := m₀.lookAtSettings.2.applySettings m₀.lookAtSettings.1.1
  have hset : Drives m m₁ := drives_applySettings m₀.lookAtSettings.2 _
  have hpods : Drives m m₁.watchPods := hset.trans (drives_beginWatch m₁ .pod)
  have hresync : Drives m m₁.watchPods.startResync := by
    unfold startResync
    split
    · exact hpods
    · exact hpods.trans (drives_wake { m₁.watchPods with resyncing := true } .resync)
  show Drives m (if !m₁.watchPods.startResync.scrapeCluster then m₁.watchPods.startResync
    else if m₁.watchPods.startResync.agent.leadership.daemon then
      m₁.watchPods.startResync.subscribe
    else m₁.watchPods.startResync.resume)
  split_ifs
  · exact hresync
  · exact hresync.trans (drives_wake _ .leadership)
  · exact hresync.trans (drives_resume _)

theorem drives_stop (m : Manager) : Drives m m.stop := by
  have hretire : ∀ (m : Manager) w, Drives m (m.retireAny w) := by
    intro m w
    cases w with
    | none => exact drives_of_eq rfl
    | some w => exact drives_retire m w
  have hended : ∀ m : Manager, Drives m m.endTasks := by
    intro m
    have hqueues := (hretire m m.services).trans (hretire _ m.pods)
    exact hqueues.trans (drives_runRetired _)
  unfold stop
  split
  · exact drives_of_eq rfl
  let leadership := m.agent.leadership.unsubscribe subscriberName
  let m₀ : Manager := { m with running := false, agent := { m.agent with leadership } }
  have hleft : Drives m m₀.endTasks := hended m₀
  exact hleft.trans (drives_of_step .deleteAll rfl)

/-! ## Every move -/

theorem drives_move (m : Manager) (mv : Move) : Drives m (m.move mv) := by
  cases mv with
  | start => exact drives_start m
  | stop => exact drives_stop m
  | resume => exact drives_resume m
  | pause => exact drives_pause m
  | report kind e => exact drives_changeWatch m kind _
  | endWatch kind => exact drives_changeWatch m kind _
  | enqueue kind => exact drives_enqueue m kind
  | takeNext kind => exact drives_takeNext m kind
  | apply kind e => exact drives_apply m kind e
  | task t => exact drives_runTask m t
  | settle => exact drives_settleWithin _ m
  | changeSettings f =>
    unfold move changeSettings
    dsimp only
    split
    · exact drives_wake { m with agent := { m.agent with live := f m.agent.live } } .resync
    · exact drives_of_eq rfl
  | changeLeadership f =>
    unfold move changeLeadership
    dsimp only
    split
    · exact drives_of_eq rfl
    · split
      · exact drives_wake
          { m with agent := { m.agent with leadership := f m.agent.leadership } } .leadership
      · exact drives_of_eq rfl
  | resync => exact drives_resync m
  | adopt => exact drives_adopt m
  | replay r => exact drives_replay m r

theorem drives_run (m : Manager) (moves : List Move) : Drives m (m.run moves) :=
  drives_foldl drives_move m moves

/-- The discoverer of a manager is in a state of a run of operations. -/
theorem exists_run_eq_discoverer (settings : Settings) (nodeName : String)
    (daemon scrapeCluster : Bool) (moves : List Move) :
    ∃ ops, ((create settings nodeName daemon scrapeCluster).run moves).agent.discoverer =
      (Discoverer.start settings nodeName).run ops :=
  drives_run (create settings nodeName daemon scrapeCluster) moves

end ScrapeDiscovery.Manager

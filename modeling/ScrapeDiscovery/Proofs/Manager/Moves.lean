import Mathlib.Data.List.Infix
import ScrapeDiscovery.Manager.Tasks
import ScrapeDiscovery.Proofs.Discoverer.Holding

/-!
# Moves of a manager

A move is something that happens to a manager. The tasks of a manager run side by
side, so a replay of the remembered resources is not one move: the settings are
adopted in one, and each resource is taken in once more in a move of its own,
with any other moves in between. In the same way a turn of the task of a watch is
made of single events that the producer puts into the queue and that the task takes
from there. A `Sound` manager has a sound discoverer and remembers every resource
under the name of its target. A change `Tidies` if it keeps the manager sound and
makes no target held without its resource.

Results:
* `resync_eq`: a replay that nothing comes between, as a sequence of moves.
* `Sound.apply_tidies`, `Sound.adopt_tidies`: taking in an event, and adopting settings.
* `Sound.replay_tidies`: taking in a resource once more that is still remembered.
* `Sound.move_tidies`: every move but the replay of a resource that has been forgotten.
* `Since.concat`: what has held since a moment of a run, after one more move.
-/

namespace ScrapeDiscovery.Manager

/-! ## Moves -/

/-- Applies the settings in effect if they have changed (`DiscoveryManager::resync`). The remembered
    resources have not been taken in once more then. -/
def adopt (m : Manager) : Manager :=
  let ((s, changed), m) := m.lookAtSettings
  if changed then m.countReload.applySettings s else m

/-- The producer of the watch of a kind puts its next event into the queue, if there is one and
    there is room for it (`DiscoveryManager::spawn_watch`). -/
def enqueue (m : Manager) (kind : ResourceKind) : Manager :=
  match (m.watch? kind).bind Watch.enqueue? with
  | none => m
  | some w => m.putWatch kind w

/-- The task of the watch of a kind takes in the next event of its queue, if there is one
    (`DiscoveryManager::spawn_watch`). -/
def takeNext (m : Manager) (kind : ResourceKind) : Manager :=
  match m.watch? kind with
  | none => m
  | some w =>
    (m.takeIn w.kind (w.pending.take 1)).putWatch kind { w with pending := w.pending.tail }

/-- Something that happens to a manager. -/
inductive Move where
  | start
  | stop
  | resume
  | pause
  /-- An event is reported to the producer of a watch. -/
  | report (kind : ResourceKind) (e : ResourceEvent)
  | endWatch (kind : ResourceKind)
  /-- The producer of a watch puts its next event into the queue. -/
  | enqueue (kind : ResourceKind)
  /-- The task of a watch takes in the next event of the queue. -/
  | takeNext (kind : ResourceKind)
  /-- One event is taken in. -/
  | apply (kind : ResourceKind) (e : ResourceEvent)
  /-- A task has its turn. -/
  | task (t : ManagerTask)
  /-- All woken tasks run until they wait. -/
  | settle
  | changeSettings (f : LiveSettings → LiveSettings)
  | changeLeadership (f : Leadership → Leadership)
  /-- Changed settings are applied, with nothing in between. -/
  | resync
  /-- Changed settings are applied, but no resource is taken in once more yet. -/
  | adopt
  /-- One resource is taken in once more. -/
  | replay (r : Resource)

/-- The state after a move. -/
def move (m : Manager) : Move → Manager
  | .start => m.start
  | .stop => m.stop
  | .resume => m.resume
  | .pause => m.pause
  | .report kind e => (m.event kind e).2
  | .endWatch kind => (m.endWatch kind).2
  | .enqueue kind => m.enqueue kind
  | .takeNext kind => m.takeNext kind
  | .apply kind e => m.apply kind e
  | .task t => m.runTask t
  | .settle => m.settle
  | .changeSettings f => m.changeSettings f
  | .changeLeadership f => m.changeLeadership f
  | .resync => m.resync.2
  | .adopt => m.adopt
  | .replay r => m.replay r

/-- The state after moves, one after the other. -/
def run (m : Manager) (moves : List Move) : Manager := moves.foldl move m

theorem run_append (m : Manager) (xs ys : List Move) : m.run (xs ++ ys) = (m.run xs).run ys :=
  List.foldl_append

/-- A replay that nothing comes between. -/
theorem resync_eq (m : Manager) :
    m.resync.2 =
      if m.lookAtSettings.1.2 then m.adopt.run (m.adopt.snapshot.map .replay) else m.adopt := by
  have hrun : ∀ (m : Manager) (rs : List Resource),
      m.run (rs.map .replay) = rs.foldl replay m := fun _ _ => List.foldl_map
  rw [hrun]
  simp only [resync, adopt]
  split <;> rfl

/-! ## What is held and what is remembered -/

/-- Some handler holds a target. -/
def Holds (m : Manager) (target : String) : Prop := m.agent.discoverer.Holds target

/-- The target of a remembered resource. -/
def Remembers (m : Manager) (target : String) : Prop :=
  ∃ r ∈ m.cache.values, r.targetName = target

/-- What every manager satisfies. -/
structure Sound (m : Manager) : Prop where
  discoverer : m.agent.discoverer.Sound
  /-- A resource is remembered under the name of its target. -/
  keyed : ∀ k r, m.cache.get? k = some r → r.targetName = k

/-- A change after which the manager is sound, and no target is held without its resource that
    was not held so before. -/
structure Tidies (m m' : Manager) : Prop where
  sound : m'.Sound
  holds : ∀ target, target ≠ Resource.apiServer.targetName → m'.Holds target →
    m'.Remembers target ∨ m.Holds target ∧ ¬m.Remembers target

theorem Sound.remembers_iff {m : Manager} (hs : m.Sound) {target : String} :
    m.Remembers target ↔ ∃ r, m.cache.get? target = some r := by
  constructor
  · rintro ⟨r, hr, rfl⟩
    obtain ⟨k, hk⟩ := KeyMap.mem_values_iff.mp hr
    rw [hs.keyed k r hk]
    exact ⟨r, hk⟩
  · rintro ⟨r, hr⟩
    exact ⟨r, KeyMap.mem_values_iff.mpr ⟨target, hr⟩, hs.keyed target r hr⟩

theorem sound_create (settings : Settings) (nodeName : String) (daemon scrapeCluster : Bool) :
    (create settings nodeName daemon scrapeCluster).Sound :=
  ⟨Discoverer.sound_start settings nodeName, fun _ _ => nofun⟩

theorem not_holds_create (settings : Settings) (nodeName : String) (daemon scrapeCluster : Bool)
    (target : String) : ¬(create settings nodeName daemon scrapeCluster).Holds target := by
  intro hh
  obtain ⟨t, ht, -⟩ := Discoverer.exists_mem_targets_iff.mpr hh
  have hnone : (create settings nodeName daemon scrapeCluster).agent.discoverer.targets = [] :=
    Discoverer.start_targets settings nodeName
  rw [hnone] at ht
  cases ht

/-! ## Tidying -/

/-- A change of the discoverer that makes nobody hold anything new. -/
theorem Sound.tidies_of_holds {m m' : Manager} (hs : m.Sound) (hcache : m'.cache = m.cache)
    (hd : m'.agent.discoverer.Sound)
    (hh : ∀ target, target ≠ Resource.apiServer.targetName → m'.Holds target → m.Holds target) :
    Tidies m m' := by
  refine ⟨⟨hd, hcache ▸ hs.keyed⟩, fun target hne hh' => ?_⟩
  have hrem : m'.Remembers target ↔ m.Remembers target := by
    rw [Remembers, Remembers, hcache]
  rw [hrem]
  exact (em (m.Remembers target)).imp_right fun hn => ⟨hh target hne hh', hn⟩

/-- Whatever happens beside the discoverer and the remembered resources. -/
theorem Sound.tidies_of_eq {m m' : Manager} (hs : m.Sound) (hcache : m'.cache = m.cache)
    (hd : m'.agent.discoverer = m.agent.discoverer) : Tidies m m' := by
  refine hs.tidies_of_holds hcache (hd ▸ hs.discoverer) fun target _ hh => ?_
  rw [Holds, hd] at hh
  exact hh

theorem Tidies.refl {m : Manager} (hs : m.Sound) : Tidies m m := hs.tidies_of_eq rfl rfl

theorem Tidies.trans {m m' m'' : Manager} (h : Tidies m m') (h' : Tidies m' m'') :
    Tidies m m'' := by
  refine ⟨h'.sound, fun target hne hh => ?_⟩
  rcases h'.holds target hne hh with hrem | ⟨hh', hn⟩
  · exact Or.inl hrem
  · exact Or.inr ((h.holds target hne hh').resolve_left hn)

theorem Sound.foldl_tidies {α : Type} {f : Manager → α → Manager}
    (hf : ∀ m a, m.Sound → Tidies m (f m a)) {m : Manager} (hs : m.Sound) (as : List α) :
    Tidies m (as.foldl f m) :=
  as.foldlRecOn f (.refl hs) fun m' h a _ => h.trans (hf m' a h.sound)

/-! ## Events -/

theorem Sound.discover_tidies {m : Manager} (hs : m.Sound) (r : Resource) :
    Tidies m (m.discover r) := by
  have hget : ∀ k, (m.discover r).cache.get? k =
      if k = r.targetName then some r else m.cache.get? k := fun k => KeyMap.get?_insert _ _ _ _
  have hs' : (m.discover r).Sound := by
    refine ⟨hs.discoverer.discover m.leading r, fun k r' hk => ?_⟩
    rcases KeyMap.get?_insert_eq_some hk with ⟨rfl, rfl⟩ | ⟨-, hk⟩
    · rfl
    · exact hs.keyed k r' hk
  refine ⟨hs', fun target _ hh => ?_⟩
  rw [hs'.remembers_iff, hget, hs.remembers_iff]
  by_cases he : target = r.targetName
  · exact Or.inl ⟨r, if_pos he⟩
  · rw [if_neg he]
    have hold : m.Holds target := (hs.discoverer.holds_discover he).mp hh
    exact (em _).imp_right fun hn => ⟨hold, hn⟩

theorem Sound.forget_tidies {m : Manager} (hs : m.Sound) (r : Resource) :
    Tidies m (m.forget r) := by
  have hget : ∀ k, (m.forget r).cache.get? k =
      if k = r.targetName then none else m.cache.get? k := fun k => KeyMap.get?_erase _ _ _
  have hs' : (m.forget r).Sound :=
    ⟨hs.discoverer.deleteResource r, fun k r' hk =>
      hs.keyed k r' (KeyMap.get?_erase_eq_some hk).2⟩
  refine ⟨hs', fun target _ hh => ?_⟩
  obtain ⟨hold, hne⟩ := hs.discoverer.holds_deleteResource.mp hh
  rw [hs'.remembers_iff, hget, hs.remembers_iff, if_neg hne]
  exact (em _).imp_right fun hn => ⟨hold, hn⟩

theorem Sound.apply_tidies {m : Manager} (hs : m.Sound) (kind : ResourceKind)
    (e : ResourceEvent) : Tidies m (m.apply kind e) := by
  cases e with
  | applied r => exact hs.discover_tidies r
  | deleted r => exact hs.forget_tidies r
  | restarted rs =>
    have hgone : Tidies m ((m.gone kind rs).foldl forget m) :=
      hs.foldl_tidies (fun _ r h => h.forget_tidies r) _
    exact hgone.trans (hgone.sound.foldl_tidies (fun _ r h => h.discover_tidies r) rs)

theorem Sound.takeIn_tidies {m : Manager} (hs : m.Sound) (kind : ResourceKind)
    (es : List ResourceEvent) : Tidies m (m.takeIn kind es) :=
  hs.foldl_tidies (fun _ e h => h.apply_tidies kind e) es

/-! ## Settings -/

theorem Sound.applySettings_tidies {m : Manager} (hs : m.Sound) (s : Settings) :
    Tidies m (m.applySettings s) := by
  have hpolicy := hs.discoverer.setAnnotationPolicy s.annotationExcludes s.annotationsDisabled
  refine hs.tidies_of_holds rfl (hpolicy.handleAll m.leading s.rules) fun target hne hh => ?_
  exact hs.discoverer.holds_setAnnotationPolicy (hpolicy.holds_handleAll hne hh)

theorem Sound.adopt_tidies {m : Manager} (hs : m.Sound) : Tidies m m.adopt := by
  have hlook : Tidies m m.lookAtSettings.2 := hs.tidies_of_eq rfl rfl
  have hcount : Tidies m m.lookAtSettings.2.countReload := hs.tidies_of_eq rfl rfl
  simp only [Manager.adopt]
  split
  · exact hcount.trans (hcount.sound.applySettings_tidies _)
  · exact hlook

/-- Taking in a resource once more touches no other target. -/
theorem Sound.replay_holds {m : Manager} (hs : m.Sound) {r : Resource} {target : String}
    (hne : target ≠ r.targetName) : (m.replay r).Holds target ↔ m.Holds target :=
  hs.discoverer.holds_discover hne

theorem Sound.replay {m : Manager} (hs : m.Sound) (r : Resource) : (m.replay r).Sound :=
  ⟨hs.discoverer.discover m.leading r, hs.keyed⟩

theorem Sound.replay_tidies {m : Manager} (hs : m.Sound) {r : Resource}
    (hr : m.Remembers r.targetName) : Tidies m (m.replay r) := by
  refine ⟨hs.replay r, fun target _ hh => ?_⟩
  by_cases he : target = r.targetName
  · exact Or.inl (he ▸ hr)
  · exact (em (m.Remembers target)).imp_right fun hn => ⟨(hs.replay_holds he).mp hh, hn⟩

theorem Sound.replays_tidies {m : Manager} (hs : m.Sound) {rs : List Resource}
    (hrs : ∀ r ∈ rs, m.Remembers r.targetName) : Tidies m (m.run (rs.map .replay)) := by
  induction rs generalizing m with
  | nil => exact .refl hs
  | cons r rs ih =>
    have hstep := hs.replay_tidies (hrs r List.mem_cons_self)
    exact hstep.trans (ih hstep.sound fun r' hr' => hrs r' (List.mem_cons_of_mem _ hr'))

theorem Sound.resync_tidies {m : Manager} (hs : m.Sound) : Tidies m m.resync.2 := by
  have hadopt := hs.adopt_tidies
  rw [resync_eq]
  split
  · refine hadopt.trans (hadopt.sound.replays_tidies fun r hr => ?_)
    exact ⟨r, (List.mem_filter.mp hr).1, rfl⟩
  · exact hadopt

/-! ## Watches -/

theorem Sound.wake_tidies {m : Manager} (hs : m.Sound) (t : ManagerTask) :
    Tidies m (m.wake t) := by
  unfold Manager.wake
  split
  · exact .refl hs
  · exact hs.tidies_of_eq rfl rfl

theorem Sound.putWatch_tidies {m : Manager} (hs : m.Sound) (kind : ResourceKind) (w : Watch) :
    Tidies m (m.putWatch kind w) := by
  cases kind <;> exact hs.tidies_of_eq rfl rfl

theorem Sound.beginWatch_tidies {m : Manager} (hs : m.Sound) (kind : ResourceKind) :
    Tidies m (m.beginWatch kind) :=
  have hput := hs.putWatch_tidies kind { kind }
  hput.trans (hput.sound.wake_tidies (watchTask kind))

theorem Sound.changeWatch_tidies {m : Manager} (hs : m.Sound) (kind : ResourceKind)
    (f : Watch → Option Watch) : Tidies m (m.changeWatch kind f).2 := by
  unfold Manager.changeWatch
  split
  · exact .refl hs
  · next w _ =>
    have hput := hs.putWatch_tidies kind w
    exact hput.trans (hput.sound.wake_tidies (watchTask kind))

theorem Sound.enqueue_tidies {m : Manager} (hs : m.Sound) (kind : ResourceKind) :
    Tidies m (m.enqueue kind) := by
  unfold Manager.enqueue
  split
  · exact .refl hs
  · exact hs.putWatch_tidies kind _

theorem Sound.takeNext_tidies {m : Manager} (hs : m.Sound) (kind : ResourceKind) :
    Tidies m (m.takeNext kind) := by
  unfold Manager.takeNext
  split
  · exact .refl hs
  · next w _ =>
    have htake := hs.takeIn_tidies w.kind (w.pending.take 1)
    exact htake.trans (htake.sound.putWatch_tidies kind _)

theorem Sound.runWatch_tidies {m : Manager} (hs : m.Sound) (kind : ResourceKind) :
    Tidies m (m.runWatch kind) := by
  unfold Manager.runWatch
  split
  · exact .refl hs
  · next w _ =>
    have htake := hs.takeIn_tidies w.kind w.due
    have hturn := htake.trans (htake.sound.putWatch_tidies kind w.turned)
    dsimp only
    split
    · exact hturn
    · exact hturn.trans (hturn.sound.wake_tidies (watchTask kind))

/-! ## Resources that belong to the cluster -/

theorem Sound.resume_tidies {m : Manager} (hs : m.Sound) : Tidies m m.resume := by
  unfold Manager.resume
  split
  · exact .refl hs
  · have hwatch := hs.beginWatch_tidies .service
    refine hwatch.trans (hwatch.sound.tidies_of_holds rfl ?_ fun target hne hh => ?_)
    · exact hwatch.sound.discoverer.performLeading _ _
    · exact (hwatch.sound.discoverer.holds_refreshApiServer hne).mp hh

/-- Whatever belongs to the cluster is forgotten together with its targets. -/
theorem Sound.purge_tidies {m : Manager} (hs : m.Sound) : Tidies m m.purge := by
  have hget : ∀ k, m.purge.cache.get? k =
      (m.cache.get? k).filter fun r => !r.kind.isClusterScoped := fun k => KeyMap.get?_filter _ _ _
  have hs' : m.purge.Sound := by
    refine ⟨hs.discoverer.deleteClusterScoped m.clusterScoped, fun k r hk => ?_⟩
    rw [hget] at hk
    exact hs.keyed k r (Option.filter_eq_some_iff.mp hk).1
  refine ⟨hs', fun target _ hh => ?_⟩
  obtain ⟨hold, hne⟩ := hs.discoverer.holds_deleteClusterScoped hh
  refine (em (m.Remembers target)).imp (fun hrem => ?_) fun hn => ⟨hold, hn⟩
  obtain ⟨r, hr⟩ := hs.remembers_iff.mp hrem
  refine hs'.remembers_iff.mpr ⟨r, (hget target).trans ?_⟩
  rw [hr, Option.filter_some, if_pos]
  -- a resource of the cluster would have been purged, and its target given up
  by_contra hscoped
  have hmem : r ∈ m.clusterScoped :=
    List.mem_filter.mpr ⟨KeyMap.mem_values_iff.mpr ⟨target, hr⟩, by simpa using hscoped⟩
  exact hne r hmem (hs.keyed target r hr).symm

theorem Sound.retire_tidies {m : Manager} (hs : m.Sound) (w : Watch) : Tidies m (m.retire w) := by
  have hadd : Tidies m { m with retired := m.retired ++ [{ w with phase := .ended }] } :=
    hs.tidies_of_eq rfl rfl
  exact hadd.trans (hadd.sound.wake_tidies .retired)

theorem Sound.pause_tidies {m : Manager} (hs : m.Sound) : Tidies m m.pause := by
  unfold Manager.pause
  split
  · exact .refl hs
  · next w _ =>
    have hnone : Tidies m { m with services := none } := hs.tidies_of_eq rfl rfl
    have hretire := hnone.trans (hnone.sound.retire_tidies w)
    exact hretire.trans hretire.sound.purge_tidies

/-! ## Tasks -/

theorem Sound.runRetired_tidies {m : Manager} (hs : m.Sound) : Tidies m m.runRetired := by
  have hnone : Tidies m { m with retired := [] } := hs.tidies_of_eq rfl rfl
  exact hnone.trans
    (hnone.sound.foldl_tidies (fun _ w h => h.takeIn_tidies w.kind w.pending) m.retired)

theorem Sound.runResync_tidies {m : Manager} (hs : m.Sound) : Tidies m m.runResync := by
  have htake : Tidies m
      { m with agent := { m.agent with live := m.agent.live.takeWakeup.2 } } :=
    hs.tidies_of_eq rfl rfl
  simp only [Manager.runResync]
  split
  · exact htake.trans htake.sound.resync_tidies
  · exact htake

theorem Sound.runLeadership_tidies {m : Manager} (hs : m.Sound) : Tidies m m.runLeadership := by
  unfold Manager.runLeadership
  split
  · exact .refl hs
  · next f _ =>
    have hfollow : ∀ f, Tidies m { m with follower := f } := fun _ => hs.tidies_of_eq rfl rfl
    have hbegun := hfollow (some { receiver := m.agent.leadership.caughtUp, begun := true })
    dsimp only
    split
    · split
      · refine hbegun.trans ?_
        unfold Manager.follow
        split
        · exact hbegun.sound.resume_tidies
        · exact hbegun.sound.pause_tidies
      · exact hbegun
    · split
      · exact hbegun.trans hbegun.sound.resume_tidies
      · exact hbegun

theorem Sound.runTask_tidies {m : Manager} (hs : m.Sound) (t : ManagerTask) :
    Tidies m (m.runTask t) := by
  cases t with
  | pods => exact hs.runWatch_tidies .pod
  | services => exact hs.runWatch_tidies .service
  | retired => exact hs.runRetired_tidies
  | resync =>
    simp only [Manager.runTask]
    split
    · exact hs.runResync_tidies
    · exact .refl hs
  | leadership => exact hs.runLeadership_tidies

theorem Sound.settleWithin_tidies {m : Manager} (hs : m.Sound) (fuel : Nat) :
    Tidies m (settleWithin fuel m) := by
  induction fuel generalizing m with
  | zero => exact .refl hs
  | succ fuel ih =>
    unfold settleWithin
    split
    · exact .refl hs
    · next t ts _ =>
      have hpop : Tidies m { m with ready := ts } := hs.tidies_of_eq rfl rfl
      have htask := hpop.trans (hpop.sound.runTask_tidies t)
      exact htask.trans (ih htask.sound)

/-! ## Starting and stopping -/

theorem Sound.startResync_tidies {m : Manager} (hs : m.Sound) : Tidies m m.startResync := by
  unfold Manager.startResync
  split
  · exact .refl hs
  · have hresync : Tidies m { m with resyncing := true } := hs.tidies_of_eq rfl rfl
    exact hresync.trans (hresync.sound.wake_tidies .resync)

theorem Sound.subscribe_tidies {m : Manager} (hs : m.Sound) : Tidies m m.subscribe := by
  have hsub : ∀ leadership follower,
      Tidies m { m with agent := { m.agent with leadership }, follower } :=
    fun _ _ => hs.tidies_of_eq rfl rfl
  exact (hsub _ _).trans ((hsub _ _).sound.wake_tidies .leadership)

theorem Sound.start_tidies {m : Manager} (hs : m.Sound) : Tidies m m.start := by
  unfold Manager.start
  split
  · exact .refl hs
  let m₀ : Manager := { m with running := true, agent := { m.agent with enabled := true } }
  let s := m₀.lookAtSettings.1.1
  let m₁ : Manager := (m₀.lookAtSettings.2.applySettings s).watchPods.startResync
  have hlook : Tidies m m₀.lookAtSettings.2 := hs.tidies_of_eq rfl rfl
  have hset := hlook.trans (hlook.sound.applySettings_tidies s)
  have hwatch := hset.trans (hset.sound.beginWatch_tidies .pod)
  have hresync : Tidies m m₁ := hwatch.trans hwatch.sound.startResync_tidies
  show Tidies m (if !m₁.scrapeCluster then m₁
    else if m₁.agent.leadership.daemon then m₁.subscribe else m₁.resume)
  split_ifs
  · exact hresync
  · exact hresync.trans hresync.sound.subscribe_tidies
  · exact hresync.trans hresync.sound.resume_tidies

theorem Sound.retireAny_tidies {m : Manager} (hs : m.Sound) (w : Option Watch) :
    Tidies m (m.retireAny w) := by
  cases w with
  | none => exact .refl hs
  | some w => exact hs.retire_tidies w

theorem Sound.endTasks_tidies {m : Manager} (hs : m.Sound) : Tidies m m.endTasks := by
  let m₀ : Manager := (m.retireAny m.services).retireAny m.pods
  let m₁ : Manager :=
    { m₀ with
      services := none, pods := none, resyncing := false, follower := none, ready := [] }
  have hservices := hs.retireAny_tidies m.services
  have hpods : Tidies m m₀ := hservices.trans (hservices.sound.retireAny_tidies m.pods)
  have hended : Tidies m m₁ := hpods.trans (hpods.sound.tidies_of_eq rfl rfl)
  exact hended.trans hended.sound.runRetired_tidies

/-- A manager that was stopped holds nothing. -/
theorem Sound.stop_tidies {m : Manager} (hs : m.Sound) : Tidies m m.stop := by
  unfold Manager.stop
  split
  · exact .refl hs
  let leadership := m.agent.leadership.unsubscribe subscriberName
  let m₀ : Manager := { m with running := false, agent := { m.agent with leadership } }
  have hleft : Tidies m m₀ := hs.tidies_of_eq rfl rfl
  have hended : Tidies m m₀.endTasks := hleft.trans hleft.sound.endTasks_tidies
  refine ⟨⟨hended.sound.discoverer.step .deleteAll, fun _ _ => nofun⟩, fun target _ hh => ?_⟩
  exact absurd hh (hended.sound.discoverer.not_holds_deleteAll target)

/-! ## Every move -/

theorem Sound.changeLeadership_tidies {m : Manager} (hs : m.Sound)
    (f : Leadership → Leadership) : Tidies m (m.changeLeadership f) := by
  have hchange : Tidies m
      { m with agent := { m.agent with leadership := f m.agent.leadership } } :=
    hs.tidies_of_eq rfl rfl
  unfold Manager.changeLeadership
  dsimp only
  split
  · exact hchange
  · split
    · exact hchange.trans (hchange.sound.wake_tidies .leadership)
    · exact hchange

theorem Sound.changeSettings_tidies {m : Manager} (hs : m.Sound)
    (f : LiveSettings → LiveSettings) : Tidies m (m.changeSettings f) := by
  have hchange : Tidies m { m with agent := { m.agent with live := f m.agent.live } } :=
    hs.tidies_of_eq rfl rfl
  unfold Manager.changeSettings
  dsimp only
  split
  · exact hchange.trans (hchange.sound.wake_tidies .resync)
  · exact hchange

/-- Only the replay of a resource that has been forgotten can leave a target without its
    resource. -/
theorem Sound.move_tidies {m : Manager} (hs : m.Sound) {mv : Move}
    (hmv : ∀ r, mv = .replay r → m.Remembers r.targetName) : Tidies m (m.move mv) := by
  cases mv with
  | start => exact hs.start_tidies
  | stop => exact hs.stop_tidies
  | resume => exact hs.resume_tidies
  | pause => exact hs.pause_tidies
  | report kind e => exact hs.changeWatch_tidies kind _
  | endWatch kind => exact hs.changeWatch_tidies kind _
  | enqueue kind => exact hs.enqueue_tidies kind
  | takeNext kind => exact hs.takeNext_tidies kind
  | apply kind e => exact hs.apply_tidies kind e
  | task t => exact hs.runTask_tidies t
  | settle => exact hs.settleWithin_tidies _
  | changeSettings f => exact hs.changeSettings_tidies f
  | changeLeadership f => exact hs.changeLeadership_tidies f
  | resync => exact hs.resync_tidies
  | adopt => exact hs.adopt_tidies
  | replay r => exact hs.replay_tidies (hmv r rfl)

theorem Sound.move {m : Manager} (hs : m.Sound) (mv : Move) : (m.move mv).Sound := by
  by_cases hmv : ∀ r, mv = .replay r → m.Remembers r.targetName
  · exact (hs.move_tidies hmv).sound
  · simp only [not_forall] at hmv
    obtain ⟨r, rfl, -⟩ := hmv
    exact hs.replay r

theorem Sound.run {m : Manager} (hs : m.Sound) (moves : List Move) : (m.run moves).Sound := by
  induction moves generalizing m with
  | nil => exact hs
  | cons mv moves ih => exact ih (hs.move mv)

/-! ## Since a moment of a run -/

/-- At some moment of a run `q` held, and from then on `p` has held after every move. -/
def Since (start : Manager) (moves : List Move) (q p : Manager → Prop) : Prop :=
  ∃ xs ys, moves = xs ++ ys ∧ q (start.run xs) ∧ ∀ zs, zs <+: ys → p (start.run (xs ++ zs))

variable {start : Manager} {moves : List Move} {q p : Manager → Prop}

/-- That moment may be now. -/
theorem since_now (hq : q (start.run moves)) (hp : p (start.run moves)) :
    start.Since moves q p := by
  refine ⟨moves, [], (List.append_nil moves).symm, hq, fun zs hzs => ?_⟩
  rwa [List.prefix_nil.mp hzs, List.append_nil]

theorem Since.now (h : start.Since moves q p) : p (start.run moves) := by
  obtain ⟨xs, ys, rfl, -, hp⟩ := h
  exact hp ys (List.prefix_refl ys)

theorem Since.concat (h : start.Since moves q p) {mv : Move}
    (hp : p (start.run (moves ++ [mv]))) : start.Since (moves ++ [mv]) q p := by
  obtain ⟨xs, ys, rfl, hq, hys⟩ := h
  refine ⟨xs, ys ++ [mv], List.append_assoc _ _ _, hq, fun zs hzs => ?_⟩
  rcases List.prefix_concat_iff.mp hzs with rfl | hzs
  · rwa [← List.append_assoc]
  · exact hys zs hzs

end ScrapeDiscovery.Manager

import ScrapeDiscovery.Proofs.Manager.Footing
import ScrapeDiscovery.Proofs.Manager.Following
import ScrapeDiscovery.Proofs.Manager.Resync

/-!
# Remembered services that nobody holds

A remembered resource is due if a rule claims it and can encode it. Taking it in
makes somebody hold its target, but services are taken in by a leading agent only:
one that is reported while the agent does not lead is remembered and nothing else,
and changed rules pass it by. When the agent leads again its services are reported
anew only if their watch was ended and begins again, and it is not ended when loss
and gain of leadership are seen as one change. Besides, a resource is not held for
the time between the change of the rules and its turn in the replay, and one whose
turn takes an old version of it may be lost until it is reported again.

Results:
* `Heeds.trans`: changes that leave no due resource without a holder, one after the other.
* `Sound.missed_move`: what a move after which somebody is missing must have been.
* `holds_iff_not_overlooked`: exactly when the target of a due resource is held.
-/

namespace ScrapeDiscovery.Manager

/-! ## Due and missed -/

/-- A rule claims the resource that is remembered with a target, and can encode it. -/
def Due (m : Manager) (target : String) : Prop :=
  ∃ r, m.cache.get? target = some r ∧ ∃ p ∈ m.agent.discoverer.pipelines.values,
    p.filter.isMatch r = true ∧ (m.agent.discoverer.encode? p r).isSome = true

/-- Nobody holds a target that is due. -/
def Missed (m : Manager) (target : String) : Prop := m.Due target ∧ ¬m.Holds target

/-- A move may leave a target behind that is due: the agent does not lead, the rules are changed
    before the remembered resources are taken in once more, or something else than the remembered
    resource is taken in. -/
def Move.Overlooks (mv : Move) (m : Manager) (target : String) : Prop :=
  (m.move mv).leading = false ∨ mv = .start ∨ mv = .adopt ∨
    ∃ r, mv = .replay r ∧ r.targetName = target ∧ m.cache.get? target ≠ some r

/-- Among moves, one has left a target behind, and it has been missed since. -/
def Overlooked (start : Manager) (moves : List Move) (target : String) : Prop :=
  ∃ xs mv ys, moves = xs ++ mv :: ys ∧ mv.Overlooks (start.run xs) target ∧
    ∀ zs, zs <+: ys → (start.run (xs ++ mv :: zs)).Missed target

variable {m m' m'' : Manager}

/-- A change that keeps the rules and forgets nothing but what it gives up misses nothing new. -/
theorem Missed.of_same {target : String} (h : m'.Missed target)
    (hcache : ∀ r, m'.cache.get? target = some r → m.cache.get? target = some r)
    (hpipelines : m'.agent.discoverer.pipelines = m.agent.discoverer.pipelines)
    (hk : m.agent.discoverer.roster.Keeps m'.agent.discoverer.roster)
    (hh : m.Holds target → m'.Holds target) : m.Missed target := by
  obtain ⟨⟨r, hr, p, hp, hmatch, henc⟩, hnot⟩ := h
  rw [hpipelines] at hp
  rw [Discoverer.encode?_of_keeps hk] at henc
  exact ⟨⟨r, hcache r hr, p, hp, hmatch, henc⟩, mt hh hnot⟩

/-! ## Changes that miss nothing new -/

/-- A change that leaves leadership as it is and misses nothing new as long as the agent leads. -/
structure Heeds (m m' : Manager) : Prop where
  sound : m'.Sound
  leading : m'.leading = m.leading
  missed : m.leading = true → ∀ target, target ≠ Resource.apiServer.targetName →
    m'.Missed target → m.Missed target

theorem Heeds.refl (hs : m.Sound) : Heeds m m := ⟨hs, rfl, fun _ _ _ => id⟩

theorem Heeds.trans (h : Heeds m m') (h' : Heeds m' m'') : Heeds m m'' :=
  ⟨h'.sound, h'.leading.trans h.leading, fun hleading target hne hmissed =>
    h.missed hleading target hne (h'.missed (h.leading.trans hleading) target hne hmissed)⟩

theorem missed_iff_of_eq (hcache : m'.cache = m.cache)
    (hd : m'.agent.discoverer = m.agent.discoverer) {target : String} :
    m'.Missed target ↔ m.Missed target := by
  rw [Missed, Missed, Due, Due, Holds, Holds, hcache, hd]

/-- Whatever happens beside the discoverer and the remembered resources. -/
theorem Sound.heeds_of_eq (hs : m.Sound) (hleading : m'.leading = m.leading)
    (hcache : m'.cache = m.cache) (hd : m'.agent.discoverer = m.agent.discoverer) :
    Heeds m m' :=
  ⟨(hs.tidies_of_eq hcache hd).sound, hleading, fun _ _ _ => (missed_iff_of_eq hcache hd).mp⟩

theorem Sound.foldl_heeds {α : Type} {f : Manager → α → Manager}
    (hf : ∀ m a, m.Sound → Heeds m (f m a)) (hs : m.Sound) (as : List α) :
    Heeds m (as.foldl f m) :=
  as.foldlRecOn f (.refl hs) fun m' h a _ => h.trans (hf m' a h.sound)

theorem Sound.wake_heeds (hs : m.Sound) (t : ManagerTask) : Heeds m (m.wake t) := by
  unfold Manager.wake
  split
  · exact .refl hs
  · exact hs.heeds_of_eq rfl rfl rfl

/-! ## Events -/

/-- The target of a remembered resource that a leading agent has just taken in is not missed. -/
theorem not_missed_of_discover {d : Discoverer} {leading : Bool} {r : Resource} (hds : d.Sound)
    (hleading : leading = true) (hd : m.agent.discoverer = d.discover leading r)
    (hcache : m.cache.get? r.targetName = some r) : ¬m.Missed r.targetName := by
  rintro ⟨⟨r', hr', p, hp, hmatch, henc⟩, hnot⟩
  obtain rfl : r = r' := Option.some.inj (hcache.symm.trans hr')
  rw [hd, Discoverer.pipelines_discover] at hp
  rw [hd, Discoverer.encode?_of_keeps (hds.discover_keeps leading r)] at henc
  refine hnot ?_
  rw [Holds, hd]
  exact hds.holds_discover_of_encode? (fun _ => hleading) hp hmatch henc

theorem Sound.discover_heeds (hs : m.Sound) (r : Resource) : Heeds m (m.discover r) := by
  refine ⟨(hs.discover_tidies r).sound, rfl, fun hleading target _ hmissed => ?_⟩
  by_cases he : target = r.targetName
  · subst he
    exact absurd hmissed
      (not_missed_of_discover hs.discoverer hleading rfl (KeyMap.get?_insert_self _ _ _))
  · refine hmissed.of_same (fun r' hr' => ?_) (Discoverer.pipelines_discover _ _ _)
      (hs.discoverer.discover_keeps _ r) (hs.discoverer.holds_discover he).mpr
    exact (KeyMap.get?_insert_of_ne he).symm.trans hr'

theorem Sound.forget_heeds (hs : m.Sound) (r : Resource) : Heeds m (m.forget r) := by
  refine ⟨(hs.forget_tidies r).sound, rfl, fun _ target _ hmissed => ?_⟩
  have hget : ∀ r', (m.forget r).cache.get? target = some r' →
      target ≠ r.targetName ∧ m.cache.get? target = some r' := fun r' =>
    KeyMap.get?_erase_eq_some
  obtain ⟨r', hr', -⟩ := hmissed.1
  refine hmissed.of_same (fun r' hr' => (hget r' hr').2) (Discoverer.performAll_pipelines _ _).1
    (hs.discoverer.performAll_keeps _) fun hh => ?_
  exact hs.discoverer.holds_deleteResource.mpr ⟨hh, (hget r' hr').1⟩

theorem Sound.apply_heeds (hs : m.Sound) (kind : ResourceKind) (e : ResourceEvent) :
    Heeds m (m.apply kind e) := by
  cases e with
  | applied r => exact hs.discover_heeds r
  | deleted r => exact hs.forget_heeds r
  | restarted rs =>
    have hgone : Heeds m ((m.gone kind rs).foldl forget m) :=
      hs.foldl_heeds (fun _ r h => h.forget_heeds r) _
    exact hgone.trans (hgone.sound.foldl_heeds (fun _ r h => h.discover_heeds r) rs)

theorem Sound.takeIn_heeds (hs : m.Sound) (kind : ResourceKind) (es : List ResourceEvent) :
    Heeds m (m.takeIn kind es) :=
  hs.foldl_heeds (fun _ e h => h.apply_heeds kind e) es

/-! ## Settings -/

/-- Taking in a resource once more that is still remembered misses nothing new. -/
theorem Sound.replay_heeds (hs : m.Sound) {r : Resource}
    (hr : m.cache.get? r.targetName = some r) : Heeds m (m.replay r) := by
  refine ⟨hs.replay r, rfl, fun hleading target _ hmissed => ?_⟩
  by_cases he : target = r.targetName
  · subst he
    exact absurd hmissed (not_missed_of_discover hs.discoverer hleading rfl hr)
  · exact hmissed.of_same (fun _ => id) (Discoverer.pipelines_discover _ _ _)
      (hs.discoverer.discover_keeps _ r) (hs.discoverer.holds_discover he).mpr

/-- Nothing is missed when changed settings were applied and all remembered resources were taken
    in once more. -/
theorem Sound.not_missed_resync (hs : m.Sound) (hleading : m.leading = true)
    (hchanged : m.resync.1 = true) (target : String) : ¬m.resync.2.Missed target := by
  rintro ⟨⟨r, hr, p, hp, hmatch, henc⟩, hnot⟩
  rw [resync_cache] at hr
  rw [pipelines_resync hleading hchanged] at hp
  have hkeeps : m.adopted.roster.Keeps m.resync.2.agent.discoverer.roster := by
    rw [resync_discoverer hleading hchanged]
    exact hs.adopted.discoverAll_keeps true _
  rw [Discoverer.encode?_of_keeps hkeeps] at henc
  have hname : r.targetName = target := hs.keyed target r hr
  have hin : r ∈ m.cache.values := KeyMap.mem_values_iff.mpr ⟨target, hr⟩
  have hsame : ∀ r' ∈ m.cache.values, r'.targetName = r.targetName → r' = r := by
    intro r' hr' he
    obtain ⟨k, hk⟩ := KeyMap.mem_values_iff.mp hr'
    have hkey : k = target := (hs.keyed k r' hk).symm.trans (he.trans hname)
    rw [hkey, hr] at hk
    exact (Option.some.inj hk).symm
  refine hnot ?_
  rw [Holds, resync_discoverer hleading hchanged, ← hname]
  exact hs.adopted.holds_discoverAll_of_encode? hin hsame (fun _ => rfl) hp hmatch henc

theorem Sound.resync_heeds (hs : m.Sound) : Heeds m m.resync.2 := by
  refine ⟨hs.resync_tidies.sound, leading_of_standing hs.carries.resync_steady.standing,
    fun hleading target _ hmissed => ?_⟩
  by_cases hchanged : m.resync.1 = true
  · exact absurd hmissed (hs.not_missed_resync hleading hchanged target)
  · have hlook : m.resync.2 = m.lookAtSettings.2 := by
      simp only [resync] at hchanged ⊢
      split at hchanged
      · exact absurd rfl hchanged
      · next hsame => rw [if_neg hsame]
    rw [hlook] at hmissed
    exact (missed_iff_of_eq rfl rfl).mp hmissed

/-! ## Watches -/

theorem Sound.putWatch_heeds (hs : m.Sound) (kind : ResourceKind) (w : Watch) :
    Heeds m (m.putWatch kind w) := by
  cases kind <;> exact hs.heeds_of_eq rfl rfl rfl

theorem Sound.beginWatch_heeds (hs : m.Sound) (kind : ResourceKind) :
    Heeds m (m.beginWatch kind) :=
  have hput := hs.putWatch_heeds kind { kind }
  hput.trans (hput.sound.wake_heeds (watchTask kind))

theorem Sound.changeWatch_heeds (hs : m.Sound) (kind : ResourceKind)
    (f : Watch → Option Watch) : Heeds m (m.changeWatch kind f).2 := by
  unfold Manager.changeWatch
  split
  · exact .refl hs
  · next w _ =>
    have hput := hs.putWatch_heeds kind w
    exact hput.trans (hput.sound.wake_heeds (watchTask kind))

theorem Sound.enqueue_heeds (hs : m.Sound) (kind : ResourceKind) :
    Heeds m (m.enqueue kind) := by
  unfold Manager.enqueue
  split
  · exact .refl hs
  · exact hs.putWatch_heeds kind _

theorem Sound.takeNext_heeds (hs : m.Sound) (kind : ResourceKind) :
    Heeds m (m.takeNext kind) := by
  unfold Manager.takeNext
  split
  · exact .refl hs
  · next w _ =>
    have htake := hs.takeIn_heeds w.kind (w.pending.take 1)
    exact htake.trans (htake.sound.putWatch_heeds kind _)

theorem Sound.runWatch_heeds (hs : m.Sound) (kind : ResourceKind) :
    Heeds m (m.runWatch kind) := by
  unfold Manager.runWatch
  split
  · exact .refl hs
  · next w _ =>
    have htake := hs.takeIn_heeds w.kind w.due
    have hturn := htake.trans (htake.sound.putWatch_heeds kind w.turned)
    dsimp only
    split
    · exact hturn
    · exact hturn.trans (hturn.sound.wake_heeds (watchTask kind))

/-! ## Resources that belong to the cluster -/

theorem Sound.resume_heeds (hs : m.Sound) : Heeds m m.resume := by
  unfold Manager.resume
  split
  · exact .refl hs
  · have hwatch := hs.beginWatch_heeds .service
    have hd := hwatch.sound.discoverer
    refine hwatch.trans ⟨⟨hd.performLeading _ _, hwatch.sound.keyed⟩, rfl,
      fun _ target hne hmissed => ?_⟩
    exact hmissed.of_same (fun _ => id) (Discoverer.performLeading_pipelines _ _ _).1
      (hd.performLeading_keeps _ _) (hd.holds_refreshApiServer hne).mpr

theorem Sound.retire_heeds (hs : m.Sound) (w : Watch) : Heeds m (m.retire w) := by
  have hadd : Heeds m { m with retired := m.retired ++ [{ w with phase := .ended }] } :=
    hs.heeds_of_eq rfl rfl rfl
  exact hadd.trans (hadd.sound.wake_heeds .retired)

theorem deleteResources_keeps {d : Discoverer} (hd : d.Sound) (rs : List Resource) :
    (rs.foldl Discoverer.deleteResource d).Sound ∧
      d.roster.Keeps (rs.foldl Discoverer.deleteResource d).roster := by
  induction rs generalizing d with
  | nil => exact ⟨hd, .refl hd.consistent⟩
  | cons r rs ih =>
    obtain ⟨hsound, hkeeps⟩ := ih (hd.deleteResource r)
    exact ⟨hsound, (hd.performAll_keeps _).trans hkeeps⟩

/-- What is forgotten is due no longer, and the other targets stay where they are. -/
theorem Sound.purge_heeds (hs : m.Sound) : Heeds m m.purge := by
  refine ⟨hs.purge_tidies.sound, rfl, fun _ target hne hmissed => ?_⟩
  obtain ⟨hall, hkeeps⟩ := deleteResources_keeps hs.discoverer m.clusterScoped
  have hget : ∀ r, m.purge.cache.get? target = some r →
      m.cache.get? target = some r ∧ r.kind.isClusterScoped = false := by
    intro r hr
    rw [show m.purge.cache.get? target = _ from KeyMap.get?_filter _ _ _,
      Option.filter_eq_some_iff] at hr
    simpa using hr
  obtain ⟨r, hr, -⟩ := hmissed.1
  have hlocal : r.kind.isClusterScoped = false := (hget r hr).2
  have hname : r.targetName = target := hs.keyed target r (hget r hr).1
  refine hmissed.of_same (fun r hr => (hget r hr).1) (pipelines_of_footing (footing_purge m))
    (hkeeps.trans (hall.performAll_keeps _)) fun hh => ?_
  refine hall.holds_deleteResource.mpr ⟨hs.discoverer.holds_deleteResources.mpr ⟨hh, ?_⟩, hne⟩
  intro r' hr' he
  -- resources whose targets have one name are of one kind
  have hkind := Resource.kind_eq_of_targetName_eq (hname.trans he)
  have hscoped : r'.kind.isClusterScoped = true := (List.mem_filter.mp hr').2
  rw [← hkind, hlocal] at hscoped
  cases hscoped

theorem Sound.pause_heeds (hs : m.Sound) : Heeds m m.pause := by
  unfold Manager.pause
  split
  · exact .refl hs
  · next w _ =>
    have hnone : Heeds m { m with services := none } := hs.heeds_of_eq rfl rfl rfl
    have hretire := hnone.trans (hnone.sound.retire_heeds w)
    exact hretire.trans hretire.sound.purge_heeds

/-! ## Tasks -/

theorem Sound.runRetired_heeds (hs : m.Sound) : Heeds m m.runRetired := by
  have hnone : Heeds m { m with retired := [] } := hs.heeds_of_eq rfl rfl rfl
  exact hnone.trans (hnone.sound.foldl_heeds 
    (fun _ w h => h.takeIn_heeds w.kind w.pending) m.retired)

theorem Sound.runResync_heeds (hs : m.Sound) : Heeds m m.runResync := by
  have htake : Heeds m { m with agent := { m.agent with live := m.agent.live.takeWakeup.2 } } :=
    hs.heeds_of_eq rfl rfl rfl
  simp only [Manager.runResync]
  split
  · exact htake.trans htake.sound.resync_heeds
  · exact htake

theorem Sound.runLeadership_heeds (hs : m.Sound) : Heeds m m.runLeadership := by
  unfold Manager.runLeadership
  split
  · exact .refl hs
  · have hlooked : Heeds m m.looked := hs.heeds_of_eq rfl rfl rfl
    dsimp only
    split
    · split
      · refine hlooked.trans ?_
        show Heeds m.looked m.looked.follow
        unfold Manager.follow
        split
        · exact hlooked.sound.resume_heeds
        · exact hlooked.sound.pause_heeds
      · exact hlooked
    · split
      · exact hlooked.trans hlooked.sound.resume_heeds
      · exact hlooked

theorem Sound.runTask_heeds (hs : m.Sound) (t : ManagerTask) : Heeds m (m.runTask t) := by
  cases t with
  | pods => exact hs.runWatch_heeds .pod
  | services => exact hs.runWatch_heeds .service
  | retired => exact hs.runRetired_heeds
  | resync =>
    simp only [Manager.runTask]
    split
    · exact hs.runResync_heeds
    · exact .refl hs
  | leadership => exact hs.runLeadership_heeds

theorem Sound.settle_heeds (hs : m.Sound) : Heeds m m.settle := by
  refine settleWithin_keeps (Q := Heeds m) (fun m' ts h => ?_) (fun m' t h => ?_) _ (.refl hs)
  · exact h.trans (h.sound.heeds_of_eq rfl rfl rfl)
  · exact h.trans (h.sound.runTask_heeds t)

/-- Nothing is due when the manager has stopped. -/
theorem Sound.stop_heeds (hs : m.Sound) : Heeds m m.stop := by
  cases hrun : m.running with
  | false =>
    rw [stop_of_not_running hrun]
    exact .refl hs
  | true =>
    have hcache : m.stop.cache = ∅ := by
      rw [Manager.stop, hrun]
      rfl
    refine ⟨hs.stop_tidies.sound, ?_, fun _ target _ hmissed => ?_⟩
    · have hstanding := congrArg (·.leadership.leading) (hs.carries.standing_stop hrun)
      exact hstanding
    · obtain ⟨r, hr, -⟩ := hmissed.1
      rw [hcache] at hr
      cases hr

/-! ## Every move -/

theorem Sound.changeSettings_heeds (hs : m.Sound) (f : LiveSettings → LiveSettings) :
    Heeds m (m.changeSettings f) := by
  have hchange : Heeds m { m with agent := { m.agent with live := f m.agent.live } } :=
    hs.heeds_of_eq rfl rfl rfl
  unfold Manager.changeSettings
  dsimp only
  split
  · exact hchange.trans (hchange.sound.wake_heeds .resync)
  · exact hchange

theorem cache_changeLeadership (m : Manager) (f : Leadership → Leadership) :
    (m.changeLeadership f).cache = m.cache := by
  unfold changeLeadership wake
  dsimp only
  split
  · rfl
  · split
    · split <;> rfl
    · rfl

/-- A target that is missed after a move was missed before, or the move has left it behind. -/
theorem Sound.missed_move (hs : m.Sound) {mv : Move} {target : String}
    (hne : target ≠ Resource.apiServer.targetName) (hmissed : (m.move mv).Missed target) :
    m.Missed target ∨ mv.Overlooks m target := by
  by_cases hlead : (m.move mv).leading = true
  swap
  · exact Or.inr (Or.inl (Bool.eq_false_iff.mpr hlead))
  have hheeds : Heeds m (m.move mv) → m.Missed target := fun h =>
    h.missed (h.leading.symm.trans hlead) target hne hmissed
  cases mv with
  | start => exact Or.inr (Or.inr (Or.inl rfl))
  | stop => exact Or.inl (hheeds hs.stop_heeds)
  | resume => exact Or.inl (hheeds hs.resume_heeds)
  | pause => exact Or.inl (hheeds hs.pause_heeds)
  | report kind e => exact Or.inl (hheeds (hs.changeWatch_heeds kind _))
  | endWatch kind => exact Or.inl (hheeds (hs.changeWatch_heeds kind _))
  | enqueue kind => exact Or.inl (hheeds (hs.enqueue_heeds kind))
  | takeNext kind => exact Or.inl (hheeds (hs.takeNext_heeds kind))
  | apply kind e => exact Or.inl (hheeds (hs.apply_heeds kind e))
  | task t => exact Or.inl (hheeds (hs.runTask_heeds t))
  | settle => exact Or.inl (hheeds hs.settle_heeds)
  | changeSettings f => exact Or.inl (hheeds (hs.changeSettings_heeds f))
  | changeLeadership f =>
    exact Or.inl ((missed_iff_of_eq (cache_changeLeadership m f)
      (discoverer_changeLeadership m f)).mp hmissed)
  | resync => exact Or.inl (hheeds hs.resync_heeds)
  | adopt => exact Or.inr (Or.inr (Or.inr (Or.inl rfl)))
  | replay r =>
    by_cases he : target = r.targetName
    · subst he
      by_cases hr : m.cache.get? r.targetName = some r
      · exact Or.inl (hheeds (hs.replay_heeds hr))
      · exact Or.inr (Or.inr (Or.inr (Or.inr ⟨r, rfl, rfl, hr⟩)))
    · refine Or.inl (hmissed.of_same (fun _ => id) (Discoverer.pipelines_discover _ _ _)
        (hs.discoverer.discover_keeps _ r) (hs.discoverer.holds_discover he).mpr)

/-! ## Since it was left behind -/

theorem Overlooked.missed {start : Manager} {moves : List Move} {target : String}
    (h : start.Overlooked moves target) : (start.run moves).Missed target := by
  obtain ⟨xs, mv, ys, rfl, -, hmissed⟩ := h
  exact hmissed ys (List.prefix_refl ys)

theorem Overlooked.concat {start : Manager} {moves : List Move} {target : String}
    (h : start.Overlooked moves target) {mv : Move}
    (hmissed : (start.run (moves ++ [mv])).Missed target) :
    start.Overlooked (moves ++ [mv]) target := by
  obtain ⟨xs, mv', ys, rfl, hleft, hys⟩ := h
  refine ⟨xs, mv', ys ++ [mv], by simp, hleft, fun zs hzs => ?_⟩
  rcases List.prefix_concat_iff.mp hzs with rfl | hzs
  · simpa using hmissed
  · exact hys zs hzs

/-- A target that is missed in the end was left behind at some moment. -/
theorem Sound.overlooked_of_missed {start : Manager} (hs : start.Sound) {target : String}
    (hne : target ≠ Resource.apiServer.targetName) (hstart : ¬start.Missed target)
    {moves : List Move} (hmissed : (start.run moves).Missed target) :
    start.Overlooked moves target := by
  induction moves using List.reverseRecOn with
  | nil => exact absurd hmissed hstart
  | append_singleton moves mv ih =>
    have hrun : start.run (moves ++ [mv]) = (start.run moves).move mv := run_append start moves [mv]
    rw [hrun] at hmissed
    rcases (hs.run moves).missed_move hne hmissed with hbefore | hleft
    · exact (ih hbefore).concat (hrun ▸ hmissed)
    · -- the last move has left it behind
      refine ⟨moves, mv, [], rfl, hleft, fun zs hzs => ?_⟩
      rw [List.prefix_nil.mp hzs, hrun]
      exact hmissed

/-- In whatever order leadership and settings change, events come and tasks run, and in particular
    when the agent leads, the latest value of leadership has been delivered and every event was
    taken in: the target of a remembered service that an installed rule claims and can encode is
    held, unless it was left behind at some moment and has been missed since. -/
theorem holds_iff_not_overlooked (settings : Settings) (nodeName : String)
    (daemon scrapeCluster : Bool) (moves : List Move) :
    let start := create settings nodeName daemon scrapeCluster
    let m := start.run moves
    ∀ r ∈ m.cache.values, r.kind ≠ .apiServer →
      ∀ p ∈ m.agent.discoverer.pipelines.values, p.filter.isMatch r = true →
        (m.agent.discoverer.encode? p r).isSome = true →
          (m.Holds r.targetName ↔ ¬start.Overlooked moves r.targetName) := by
  intro start m r hr hkind p hp hmatch henc
  have hs : start.Sound := sound_create settings nodeName daemon scrapeCluster
  have hne : r.targetName ≠ Resource.apiServer.targetName := fun he =>
    hkind (Resource.kind_eq_of_targetName_eq he)
  have hdue : m.Due r.targetName := by
    obtain ⟨k, hk⟩ := KeyMap.mem_values_iff.mp hr
    rw [← (hs.run moves).keyed k r hk] at hk
    exact ⟨r, hk, p, hp, hmatch, henc⟩
  have hstart : ¬start.Missed r.targetName := by
    rintro ⟨⟨r', hr', -⟩, -⟩
    cases hr'
  constructor
  · exact fun hh hover => hover.missed.2 hh
  · intro hover
    by_contra hnot
    exact hover (hs.overlooked_of_missed hne hstart ⟨hdue, hnot⟩)

/-- A service is known when the agent loses leadership. A rule that claims it is applied before the
    agent gains leadership again, and loss and gain are delivered as one change. The agent leads
    then, the latest value has been delivered and no event is left, but the service is not held. -/
theorem exists_missed_while_leading :
    let web : Rule :=
      { name := "a", pluginType := "prometheus"
        selectors := { resourceType := "service", namespaces := ["ns"] } }
    let service : Resource :=
      { kind := .service, ip := "10.96.0.1", object := { name := "x", ns := "ns" } }
    let m := (create {} "node-1" true true).run
      [.start, .settle, .changeLeadership (·.lead true "node-1"), .settle,
        .report .service (.applied service), .settle,
        .changeLeadership (·.lead false "node-2"),
        .changeSettings (·.setWired { rules := [web] }), .resync,
        .changeLeadership (·.lead true "node-1"), .settle]
    m.isDelivered = true ∧ m.leading = true ∧ m.ready = [] ∧ m.cache.values = [service] ∧
      (∃ p ∈ m.agent.discoverer.pipelines.values, p.filter.isMatch service = true ∧
        (m.agent.discoverer.encode? p service).isSome = true) ∧
      m.agent.discoverer.targets = [] := by
  decide +kernel

/-- A service is taken in while leadership is lost for a moment. It has been missed since. -/
theorem overlooked_of_brief_loss :
    let web : Rule :=
      { name := "a", pluginType := "prometheus"
        selectors := { resourceType := "service", namespaces := ["ns"] } }
    let service : Resource :=
      { kind := .service, ip := "10.96.0.1", object := { name := "x", ns := "ns" } }
    let start := create { rules := [web] } "node-1" true true
    let moves : List Move :=
      [.start, .settle, .changeLeadership (·.lead true "node-1"), .settle,
        .changeLeadership (·.lead false "node-2"), .apply .service (.applied service),
        .changeLeadership (·.lead true "node-1"), .settle]
    ∃ r ∈ (start.run moves).cache.values, r.kind ≠ .apiServer ∧
      (start.run moves).leading = true ∧ start.Overlooked moves r.targetName := by
  intro web service start moves
  have hknown : ∃ r ∈ (start.run moves).cache.values, r.kind ≠ .apiServer ∧
      (start.run moves).leading = true ∧ (start.run moves).agent.discoverer.targets = [] ∧
        ∃ p ∈ (start.run moves).agent.discoverer.pipelines.values, p.filter.isMatch r = true ∧
          ((start.run moves).agent.discoverer.encode? p r).isSome = true := by
    decide +kernel
  obtain ⟨r, hr, hkind, hleading, hnone, p, hp, hmatch, henc⟩ := hknown
  have hiff := holds_iff_not_overlooked { rules := [web] } "node-1" true true moves r
  rw [show create { rules := [web] } "node-1" true true = start from rfl] at hiff
  have hover := hiff hr hkind p hp hmatch henc
  refine ⟨r, hr, hkind, hleading, ?_⟩
  by_contra hn
  obtain ⟨t, ht, -⟩ := Discoverer.exists_mem_targets_iff.mpr (hover.mpr hn)
  rw [hnone] at ht
  cases ht

end ScrapeDiscovery.Manager

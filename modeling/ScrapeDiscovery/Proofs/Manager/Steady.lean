import ScrapeDiscovery.Proofs.Discoverer.ClusterTargets
import ScrapeDiscovery.Proofs.Manager.Turns

/-!
# What taking in events and settings leaves alone

Most of what a manager does is taking in what watches report and what the settings
say. None of that changes leadership, begins or ends the watch of services, or
writes settings. Such a change is `Steady`: it leaves the `Standing` of the manager
as it is, and a target of the cluster that is held only afterwards is there because
the agent leads and because a resource with that target was taken in or the rules in
effect ask for the API server. A property of resources is carried along: what was
reported with it is remembered with it.

Results:
* `Steady.trans`: steady changes, one after the other.
* `Carries.apply_steady`, `Carries.resync_steady`: taking in an event, and applying settings.
* `Carries.runTask_steady`: every task but the one that follows leadership.
-/

namespace ScrapeDiscovery

/-- The resources that an event makes known. -/
def ResourceEvent.resources : ResourceEvent → List Resource
  | .applied r => [r]
  | .deleted _ => []
  | .restarted rs => rs

/-- Every resource that a watch has reported has a property. -/
def Watch.Carries (P : Resource → Prop) (w : Watch) : Prop :=
  ∀ e ∈ w.events, ∀ r ∈ e.resources, P r

namespace Manager

/-! ## Steady changes -/

/-- The settings in effect. -/
def settings (m : Manager) : Settings := m.agent.live.current.1.1

/-- What neither events nor settings change. -/
structure Standing where
  leadership : Leadership
  settings : Settings
  scrapeCluster : Bool
  running : Bool
  /-- Whether services are watched. -/
  watching : Bool
  follower : Option Follower

/-- The standing of a manager. -/
def standing (m : Manager) : Standing where
  leadership := m.agent.leadership
  settings := m.settings
  scrapeCluster := m.scrapeCluster
  running := m.running
  watching := m.services.isSome
  follower := m.follower

/-- A sound manager for which every resource that it remembers, or that was reported and not taken
    in yet, has a property. -/
structure Carries (P : Resource → Prop) (m : Manager) : Prop where
  sound : m.Sound
  cache : ∀ r ∈ m.cache.values, P r
  pods : ∀ w ∈ m.pods, w.Carries P
  services : ∀ w ∈ m.services, w.Carries P
  retired : ∀ w ∈ m.retired, w.Carries P

/-- Where a target of the cluster may come from: a rule for the API server, or a resource. -/
def Source (P : Resource → Prop) (m : Manager) (target : String) : Prop :=
  (target = Resource.apiServer.targetName ∧ ∃ rule ∈ m.settings.rules, rule.IsForApiServer) ∨
    ∃ r, P r ∧ r.targetName = target

/-- A change that keeps the standing of a manager, and after which a target of the cluster is held
    that was not held before only if the agent leads and the target has a source. -/
structure Steady (P : Resource → Prop) (m m' : Manager) : Prop where
  standing : m'.standing = m.standing
  carries : m'.Carries P
  gains : ∀ target, IsClusterTarget target → m'.Holds target →
    m.Holds target ∨ m.leading = true ∧ m.Source P target

variable {P : Resource → Prop} {m m' m'' : Manager}

theorem leading_of_standing (h : m'.standing = m.standing) : m'.leading = m.leading :=
  congrArg (·.leadership.leading) h

theorem source_of_standing (h : m'.standing = m.standing) {target : String} :
    m'.Source P target ↔ m.Source P target := by
  have hsettings : m'.settings = m.settings := congrArg (·.settings) h
  rw [Source, Source, hsettings]

theorem Steady.trans (h : Steady P m m') (h' : Steady P m' m'') : Steady P m m'' := by
  refine ⟨h'.standing.trans h.standing, h'.carries, fun target ht hh => ?_⟩
  rcases h'.gains target ht hh with hheld | ⟨hleading, hsource⟩
  · exact h.gains target ht hheld
  · rw [leading_of_standing h.standing] at hleading
    exact Or.inr ⟨hleading, (source_of_standing h.standing).mp hsource⟩

/-- A change that makes nobody hold anything new. -/
theorem steady_of_holds (hc' : m'.Carries P) (hstanding : m'.standing = m.standing)
    (hh : ∀ target, m'.Holds target → m.Holds target) : Steady P m m' :=
  ⟨hstanding, hc', fun target _ h => Or.inl (hh target h)⟩

theorem Steady.refl (hc : m.Carries P) : Steady P m m := steady_of_holds hc rfl fun _ => id

theorem Carries.foldl_steady {α : Type} {f : Manager → α → Manager} {as : List α}
    (hf : ∀ m, m.Carries P → ∀ a ∈ as, Steady P m (f m a)) (hc : m.Carries P) :
    Steady P m (as.foldl f m) :=
  as.foldlRecOn f (.refl hc) fun m' h a ha => h.trans (hf m' h.carries a ha)

/-- Whatever happens beside the discoverer, the remembered resources and the watches. -/
theorem Carries.of_eq (hc : m.Carries P) (hd : m'.agent.discoverer = m.agent.discoverer)
    (hcache : m'.cache = m.cache) (hpods : ∀ w ∈ m'.pods, w.Carries P)
    (hservices : ∀ w ∈ m'.services, w.Carries P) (hretired : ∀ w ∈ m'.retired, w.Carries P) :
    m'.Carries P :=
  ⟨(hc.sound.tidies_of_eq hcache hd).sound, hcache ▸ hc.cache, hpods, hservices, hretired⟩

theorem Carries.steady_of_eq (hc : m.Carries P) (hstanding : m'.standing = m.standing)
    (hd : m'.agent.discoverer = m.agent.discoverer) (hcache : m'.cache = m.cache)
    (hpods : ∀ w ∈ m'.pods, w.Carries P) (hservices : ∀ w ∈ m'.services, w.Carries P)
    (hretired : ∀ w ∈ m'.retired, w.Carries P) : Steady P m m' := by
  refine steady_of_holds (hc.of_eq hd hcache hpods hservices hretired) hstanding fun target hh => ?_
  rwa [Holds, hd] at hh

theorem Carries.wake_steady (hc : m.Carries P) (t : ManagerTask) : Steady P m (m.wake t) := by
  unfold Manager.wake
  split
  · exact .refl hc
  · exact hc.steady_of_eq rfl rfl rfl hc.pods hc.services hc.retired

/-! ## Events -/

theorem Carries.discover_steady (hc : m.Carries P) {r : Resource} (hr : P r) :
    Steady P m (m.discover r) := by
  refine ⟨rfl, ⟨(hc.sound.discover_tidies r).sound, ?_, hc.pods, hc.services, hc.retired⟩,
    fun target ht hh => ?_⟩
  · intro r' hr'
    obtain ⟨k, hk⟩ := KeyMap.mem_values_iff.mp hr'
    rcases KeyMap.get?_insert_eq_some hk with ⟨-, rfl⟩ | ⟨-, hk⟩
    · exact hr
    · exact hc.cache r' (KeyMap.mem_values_iff.mpr ⟨k, hk⟩)
  · refine (hc.sound.discoverer.gains_discover ht hh).imp_right fun h => ?_
    exact ⟨h.1, Or.inr ⟨r, hr, h.2⟩⟩

theorem Carries.forget_steady (hc : m.Carries P) (r : Resource) : Steady P m (m.forget r) := by
  refine steady_of_holds
    ⟨(hc.sound.forget_tidies r).sound, ?_, hc.pods, hc.services, hc.retired⟩ rfl fun target hh => ?_
  · intro r' hr'
    obtain ⟨k, hk⟩ := KeyMap.mem_values_iff.mp hr'
    exact hc.cache r' (KeyMap.mem_values_iff.mpr ⟨k, (KeyMap.get?_erase_eq_some hk).2⟩)
  · exact (hc.sound.discoverer.holds_deleteResource.mp hh).1

theorem Carries.apply_steady (hc : m.Carries P) (kind : ResourceKind) {e : ResourceEvent}
    (he : ∀ r ∈ e.resources, P r) : Steady P m (m.apply kind e) := by
  cases e with
  | applied r => exact hc.discover_steady (he r (List.mem_singleton_self r))
  | deleted r => exact hc.forget_steady r
  | restarted rs =>
    have hgone : Steady P m ((m.gone kind rs).foldl forget m) :=
      hc.foldl_steady fun _ hm r _ => hm.forget_steady r
    exact hgone.trans (hgone.carries.foldl_steady fun _ hm r hr => hm.discover_steady (he r hr))

theorem Carries.takeIn_steady (hc : m.Carries P) (kind : ResourceKind) {es : List ResourceEvent}
    (hes : ∀ e ∈ es, ∀ r ∈ e.resources, P r) : Steady P m (m.takeIn kind es) :=
  hc.foldl_steady fun _ hm e he => hm.apply_steady kind (hes e he)

/-! ## Settings -/

theorem current_of_looked (l : LiveSettings) : l.current.2.current.1.1 = l.current.1.1 := by
  unfold LiveSettings.current
  cases hdirty : l.dirty <;> simp [hdirty]

theorem current_of_woken (l : LiveSettings) : l.takeWakeup.2.current.1.1 = l.current.1.1 := by
  unfold LiveSettings.current LiveSettings.takeWakeup
  cases l.dirty <;> rfl

theorem Carries.lookAtSettings_steady (hc : m.Carries P) : Steady P m m.lookAtSettings.2 := by
  refine hc.steady_of_eq ?_ rfl rfl hc.pods hc.services hc.retired
  have hsettings : m.lookAtSettings.2.settings = m.settings := current_of_looked m.agent.live
  rw [standing, standing, hsettings]
  rfl

/-- Applying the settings in effect brings the target of the API server at most. -/
theorem Carries.applySettings_steady (hc : m.Carries P) {s : Settings} (hset : s = m.settings) :
    Steady P m (m.applySettings s) := by
  have hpolicy :=
    hc.sound.discoverer.setAnnotationPolicy s.annotationExcludes s.annotationsDisabled
  refine ⟨rfl, ⟨(hc.sound.applySettings_tidies s).sound, hc.cache, hc.pods, hc.services,
    hc.retired⟩, fun target _ hh => ?_⟩
  rcases hpolicy.gains_handleAll hh with hheld | ⟨hleading, hname, hrule⟩
  · exact Or.inl (hc.sound.discoverer.holds_setAnnotationPolicy hheld)
  · exact Or.inr ⟨hleading, Or.inl ⟨hname, hset ▸ hrule⟩⟩

theorem Carries.adopt_steady (hc : m.Carries P) : Steady P m m.adopt := by
  have hlook := hc.lookAtSettings_steady
  have hcount : Steady P m m.lookAtSettings.2.countReload :=
    hlook.trans (hlook.carries.steady_of_eq rfl rfl rfl hlook.carries.pods hlook.carries.services
      hlook.carries.retired)
  have hset : m.lookAtSettings.1.1 = m.lookAtSettings.2.countReload.settings :=
    (current_of_looked m.agent.live).symm
  simp only [Manager.adopt]
  split
  · exact hcount.trans (hcount.carries.applySettings_steady hset)
  · exact hlook

theorem Carries.replay_steady (hc : m.Carries P) {r : Resource} (hr : P r) :
    Steady P m (m.replay r) := by
  refine ⟨rfl, ⟨hc.sound.replay r, hc.cache, hc.pods, hc.services, hc.retired⟩,
    fun target ht hh => ?_⟩
  refine (hc.sound.discoverer.gains_discover ht hh).imp_right fun h => ?_
  exact ⟨h.1, Or.inr ⟨r, hr, h.2⟩⟩

theorem Carries.resync_steady (hc : m.Carries P) : Steady P m m.resync.2 := by
  have hadopt := hc.adopt_steady
  rw [resync_eq]
  split
  · refine hadopt.trans ?_
    have hrun : m.adopt.run (m.adopt.snapshot.map .replay) =
        m.adopt.snapshot.foldl Manager.replay m.adopt := List.foldl_map
    rw [hrun]
    refine hadopt.carries.foldl_steady fun _ hm r hr => hm.replay_steady ?_
    exact hadopt.carries.cache r (List.mem_filter.mp hr).1
  · exact hadopt

/-! ## Watches -/

/-- Putting a watch in the place of another one. -/
theorem Carries.putWatch_steady (hc : m.Carries P) {kind : ResourceKind} {w : Watch}
    (hw : w.Carries P) (hwatched : (m.watch? kind).isSome = true) :
    Steady P m (m.putWatch kind w) := by
  have hput : ∀ w' ∈ some w, w'.Carries P := by
    rintro _ ⟨rfl⟩
    exact hw
  have hservices : m.services.isSome = true → Steady P m { m with services := some w } := by
    intro hwatching
    refine hc.steady_of_eq ?_ rfl rfl hc.pods hput hc.retired
    rw [standing, standing, hwatching]
    rfl
  cases kind with
  | pod => exact hc.steady_of_eq rfl rfl rfl hput hc.services hc.retired
  | service => exact hservices hwatched
  | apiServer => exact hservices hwatched

theorem Carries.watch? (hc : m.Carries P) {kind : ResourceKind} {w : Watch}
    (hw : m.watch? kind = some w) : w.Carries P := by
  cases kind with
  | pod => exact hc.pods w hw
  | service => exact hc.services w hw
  | apiServer => exact hc.services w hw

theorem Carries.changeWatch_steady (hc : m.Carries P) (kind : ResourceKind)
    {f : Watch → Option Watch}
    (hf : ∀ w ∈ m.watch? kind, ∀ w' ∈ f w, w.Carries P → w'.Carries P) :
    Steady P m (m.changeWatch kind f).2 := by
  unfold Manager.changeWatch
  split
  · exact .refl hc
  · next w' hw' =>
    obtain ⟨w, hw, hfw⟩ := Option.bind_eq_some_iff.mp hw'
    have hput := hc.putWatch_steady (hf w hw w' hfw (hc.watch? hw)) (Option.isSome_of_mem hw)
    exact hput.trans (hput.carries.wake_steady _)

theorem Carries.event_steady (hc : m.Carries P) {kind : ResourceKind} {e : ResourceEvent}
    (he : m.watch? kind ≠ none → ∀ r ∈ e.resources, P r) : Steady P m (m.event kind e).2 := by
  refine hc.changeWatch_steady kind fun w hw w' hw' hcarries => ?_
  have hwatched : m.watch? kind ≠ none := fun hnone => by rw [hnone] at hw; cases hw
  intro e' he'
  rw [Watch.events_of_report? hw', List.mem_append, List.mem_singleton] at he'
  rcases he' with he' | rfl
  · exact hcarries e' he'
  · exact he hwatched

theorem Carries.endWatch_steady (hc : m.Carries P) (kind : ResourceKind) :
    Steady P m (m.endWatch kind).2 := by
  refine hc.changeWatch_steady kind fun w _ w' hw' hcarries => ?_
  rw [Watch.Carries, Watch.events_of_finish? hw']
  exact hcarries

theorem Carries.enqueue_steady (hc : m.Carries P) (kind : ResourceKind) :
    Steady P m (m.enqueue kind) := by
  unfold Manager.enqueue
  split
  · exact .refl hc
  · next w' hw' =>
    obtain ⟨w, hw, hfw⟩ := Option.bind_eq_some_iff.mp hw'
    have hcarries : w'.Carries P := by
      rw [Watch.Carries, Watch.events_of_enqueue? hfw]
      exact hc.watch? hw
    exact hc.putWatch_steady hcarries (Option.isSome_of_mem hw)

/-- The task of a watch takes in its oldest events and keeps the others. -/
theorem Carries.takeInPut_steady (hc : m.Carries P) {kind : ResourceKind} {w w' : Watch}
    (hw : m.watch? kind = some w) {es : List ResourceEvent} (hes : es ++ w'.events = w.events) :
    Steady P m ((m.takeIn w.kind es).putWatch kind w') := by
  have hall : ∀ e ∈ es ++ w'.events, ∀ r ∈ e.resources, P r := hes ▸ hc.watch? hw
  have htake : Steady P m (m.takeIn w.kind es) :=
    hc.takeIn_steady w.kind fun e he => hall e (List.mem_append_left _ he)
  refine htake.trans (htake.carries.putWatch_steady ?_ ?_)
  · exact fun e he => hall e (List.mem_append_right _ he)
  · rw [watch?_of_agenda (agenda_takeIn m w.kind es)]
    exact Option.isSome_of_mem hw

theorem Carries.takeNext_steady (hc : m.Carries P) (kind : ResourceKind) :
    Steady P m (m.takeNext kind) := by
  unfold Manager.takeNext
  split
  · exact .refl hc
  · next w hw =>
    refine hc.takeInPut_steady hw ?_
    show w.pending.take 1 ++ (w.pending.tail ++ w.reported) = w.pending ++ w.reported
    rw [← List.append_assoc, ← List.drop_one, List.take_append_drop]

theorem Carries.runWatch_steady (hc : m.Carries P) (kind : ResourceKind) :
    Steady P m (m.runWatch kind) := by
  unfold Manager.runWatch
  split
  · exact .refl hc
  · next w hw =>
    have hturn := hc.takeInPut_steady hw w.due_append_events
    dsimp only
    split
    · exact hturn
    · exact hturn.trans (hturn.carries.wake_steady _)

/-! ## Tasks -/

theorem Carries.runRetired_steady (hc : m.Carries P) : Steady P m m.runRetired := by
  have hnone : Steady P m { m with retired := [] } :=
    hc.steady_of_eq rfl rfl rfl hc.pods hc.services fun _ h => absurd h List.not_mem_nil
  exact hnone.trans (hnone.carries.foldl_steady fun _ hm w hw =>
    hm.takeIn_steady w.kind fun e he => hc.retired w hw e (List.mem_append_left _ he))

theorem Carries.runResync_steady (hc : m.Carries P) : Steady P m m.runResync := by
  have htake : Steady P m
      { m with agent := { m.agent with live := m.agent.live.takeWakeup.2 } } := by
    refine hc.steady_of_eq ?_ rfl rfl hc.pods hc.services hc.retired
    have hsettings :
        { m with agent := { m.agent with live := m.agent.live.takeWakeup.2 } }.settings =
          m.settings := current_of_woken m.agent.live
    rw [standing, standing, hsettings]
  simp only [Manager.runResync]
  split
  · exact htake.trans htake.carries.resync_steady
  · exact htake

theorem Carries.runTask_steady (hc : m.Carries P) {t : ManagerTask} (ht : t ≠ .leadership) :
    Steady P m (m.runTask t) := by
  cases t with
  | pods => exact hc.runWatch_steady .pod
  | services => exact hc.runWatch_steady .service
  | retired => exact hc.runRetired_steady
  | resync =>
    simp only [Manager.runTask]
    split
    · exact hc.runResync_steady
    · exact .refl hc
  | leadership => exact absurd rfl ht

/-- Whatever tasks keep, settling keeps. -/
theorem settleWithin_keeps {Q : Manager → Prop}
    (hpop : ∀ m ts, Q m → Q { m with ready := ts }) (htask : ∀ m t, Q m → Q (m.runTask t))
    (fuel : Nat) (h : Q m) : Q (settleWithin fuel m) := by
  induction fuel generalizing m with
  | zero => exact h
  | succ fuel ih =>
    unfold settleWithin
    split
    · exact h
    · next t ts _ => exact ih (htask _ t (hpop m ts h))

/-! ## Beginning and ending watches -/

theorem Carries.retire_steady (hc : m.Carries P) {w : Watch} (hw : w.Carries P) :
    Steady P m (m.retire w) := by
  have hadd : Steady P m { m with retired := m.retired ++ [{ w with phase := .ended }] } := by
    refine hc.steady_of_eq rfl rfl rfl hc.pods hc.services fun w' hw' => ?_
    rcases List.mem_append.mp hw' with hw' | hw'
    · exact hc.retired w' hw'
    · rw [List.mem_singleton.mp hw']
      exact hw
  exact hadd.trans (hadd.carries.wake_steady .retired)

theorem Carries.watchPods_steady (hc : m.Carries P) : Steady P m m.watchPods := by
  have hwatch : Steady P m (m.putWatch .pod { kind := .pod }) := by
    refine hc.steady_of_eq rfl rfl rfl ?_ hc.services hc.retired
    rintro _ ⟨rfl⟩
    exact fun _ he => absurd he List.not_mem_nil
  exact hwatch.trans (hwatch.carries.wake_steady .pods)

theorem Carries.startResync_steady (hc : m.Carries P) : Steady P m m.startResync := by
  unfold Manager.startResync
  split
  · exact .refl hc
  · have hresync : Steady P m { m with resyncing := true } :=
      hc.steady_of_eq rfl rfl rfl hc.pods hc.services hc.retired
    exact hresync.trans (hresync.carries.wake_steady .resync)

/-! ## Starting and stopping -/

/-- A manager that has just started, before it turns to what belongs to the cluster. -/
def begun (m : Manager) : Manager :=
  let m := { m with running := true, agent := { m.agent with enabled := true } }
  (m.lookAtSettings.2.applySettings m.lookAtSettings.1.1).watchPods.startResync

theorem start_of_not_running (hrun : m.running = false) :
    m.start =
      if !m.begun.scrapeCluster then m.begun
      else if m.begun.agent.leadership.daemon then m.begun.subscribe
      else m.begun.resume := by
  rw [Manager.start, hrun]
  rfl

theorem Carries.begun_steady (hc : m.Carries P) :
    Steady P { m with running := true, agent := { m.agent with enabled := true } } m.begun := by
  let m₀ : Manager := { m with running := true, agent := { m.agent with enabled := true } }
  have hc₀ : m₀.Carries P := hc.of_eq rfl rfl hc.pods hc.services hc.retired
  have hlook := hc₀.lookAtSettings_steady
  have hset := hlook.trans
    (hlook.carries.applySettings_steady (current_of_looked m.agent.live).symm)
  have hwatch := hset.trans hset.carries.watchPods_steady
  exact hwatch.trans hwatch.carries.startResync_steady

theorem Carries.retireAny_steady (hc : m.Carries P) {w : Option Watch}
    (hw : ∀ w' ∈ w, w'.Carries P) : Steady P m (m.retireAny w) := by
  cases w with
  | none => exact .refl hc
  | some w => exact hc.retire_steady (hw w rfl)

/-- Nothing is watched and nobody is followed when the tasks have ended. -/
theorem Carries.endTasks (hc : m.Carries P) :
    m.endTasks.Carries P ∧
      m.endTasks.standing = { m.standing with watching := false, follower := none } := by
  let m₀ : Manager := (m.retireAny m.services).retireAny m.pods
  let m₁ : Manager :=
    { m₀ with
      services := none, pods := none, resyncing := false, follower := none, ready := [] }
  have hservices := hc.retireAny_steady hc.services
  have hpods : Steady P m m₀ := hservices.trans (hservices.carries.retireAny_steady hc.pods)
  have hnone : ∀ w ∈ (none : Option Watch), w.Carries P :=
    fun _ h => absurd h (Option.not_mem_none _)
  have hc₁ : m₁.Carries P :=
    hpods.carries.of_eq rfl rfl hnone hnone hpods.carries.retired
  have hended := hc₁.runRetired_steady
  refine ⟨hended.carries, hended.standing.trans ?_⟩
  rw [← hpods.standing]
  rfl

theorem Carries.stop (hc : m.Carries P) : m.stop.Carries P := by
  have hsound := hc.sound.stop_tidies.sound
  unfold Manager.stop at hsound ⊢
  split
  · exact hc
  · next hrun =>
    let leadership := m.agent.leadership.unsubscribe subscriberName
    let m₀ : Manager := { m with running := false, agent := { m.agent with leadership } }
    have hc₀ : m₀.Carries P := hc.of_eq rfl rfl hc.pods hc.services hc.retired
    have hended := hc₀.endTasks.1
    rw [if_neg hrun] at hsound
    exact ⟨hsound, fun _ h => absurd h List.not_mem_nil, hended.pods, hended.services,
      hended.retired⟩

theorem Carries.standing_stop (hc : m.Carries P) (hrun : m.running = true) :
    m.stop.standing =
      { m.standing with
        leadership := m.agent.leadership.unsubscribe subscriberName
        running := false, watching := false, follower := none } := by
  let leadership := m.agent.leadership.unsubscribe subscriberName
  let m₀ : Manager := { m with running := false, agent := { m.agent with leadership } }
  have hc₀ : m₀.Carries P := hc.of_eq rfl rfl hc.pods hc.services hc.retired
  have hstop : m.stop.standing = m₀.endTasks.standing := by
    rw [Manager.stop, hrun]
    rfl
  exact hstop.trans hc₀.endTasks.2

/-- A manager that has been stopped holds nothing. -/
theorem Sound.not_holds_stop (hs : m.Sound) (hrun : m.running = true) (target : String) :
    ¬m.stop.Holds target := by
  let leadership := m.agent.leadership.unsubscribe subscriberName
  let m₀ : Manager := { m with running := false, agent := { m.agent with leadership } }
  have hleft : Tidies m m₀ := hs.tidies_of_eq rfl rfl
  have hstop : m.stop.agent.discoverer = m₀.endTasks.agent.discoverer.deleteAll := by
    rw [Manager.stop, hrun]
    rfl
  rw [Holds, hstop]
  exact hleft.sound.endTasks_tidies.sound.discoverer.not_holds_deleteAll target

end Manager

end ScrapeDiscovery

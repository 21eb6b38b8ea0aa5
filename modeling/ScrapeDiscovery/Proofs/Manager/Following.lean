import ScrapeDiscovery.Proofs.Election.Transitions
import ScrapeDiscovery.Proofs.Manager.Steady

/-!
# Following leadership

Where a leader is elected, the task that follows leadership watches services while the
agent leads and gives up what belongs to the cluster when it does not. It sees the
latest value only, and it gives up nothing unless services are watched. Once it has
seen the latest value, services are watched exactly if the agent leads. A target of
the cluster can outlive that in two ways: it was held while the agent led but services
were not watched, so that the task, when it looked again, had nothing to stop; or it
was held without its resource, so that stopping did not reach it.

Results:
* `Standing.InStep.caughtUp`: what the task leaves behind.
* `Sound.unguarded_of_pause`: what outlives the end of the watch of services.
* `Sound.move_turn`: what every move does.
* `holds_iff_since_unguarded`: exactly when an agent that does not lead any longer holds a target of
  the cluster.
-/

namespace ScrapeDiscovery

/-! ## Transitions of leadership -/

/-- An election says who leads, or has failed. -/
def Leadership.IsTransition (f : Leadership → Leadership) : Prop :=
  (∃ leading leader, f = fun l => l.lead leading leader) ∨ f = Leadership.fail

/-- A transition that changes whether the agent leads is published, and no other one. -/
theorem Leadership.published_of_isTransition {f : Leadership → Leadership} (hf : IsTransition f)
    {l : Leadership} (hd : l.daemon = true) :
    (f l).daemon = true ∧
      ((f l).published = l.published ∧ (f l).leading = l.leading ∨
        ∃ value, (f l).published = l.published ++ [value] ∧ (f l).leading = value) := by
  obtain ⟨c, rfl⟩ : ∃ c : Call, f = fun l => l.call c := by
    rcases hf with ⟨value, leader, rfl⟩ | rfl
    · exact ⟨.lead value leader, rfl⟩
    · exact ⟨.fail, rfl⟩
  dsimp only
  by_cases hfailed : l.failed = true
  · rw [call_of_failed hfailed]
    exact ⟨hd, Or.inl ⟨rfl, rfl⟩⟩
  · have effect := effect_call hd (Bool.eq_false_iff.mpr hfailed) c
    rw [leading_eq_elected hd, leading_eq_elected effect.daemon, effect.published, effect.elected]
    refine ⟨effect.daemon, ?_⟩
    split
    · next hsame => exact Or.inl ⟨rfl, hsame⟩
    · exact Or.inr ⟨_, rfl, rfl⟩

namespace Manager

/-! ## What the task of following relies on -/

/-- The standing of a manager of an agent that has to be elected: services are watched only if
    leadership is followed, and as long as nothing is news exactly if the agent leads. -/
structure Standing.InStep (s : Standing) : Prop where
  daemon : s.leadership.daemon = true
  scrapeCluster : s.scrapeCluster = true
  visible : s.leadership.visible = s.leadership.leading
  running : s.follower ≠ none → s.running = true
  seen : ∀ f ∈ s.follower, f.receiver.seen ≤ s.leadership.published.length
  begun : s.watching = true → ∃ f ∈ s.follower, f.begun = true
  current : ∀ f ∈ s.follower, f.begun = true → s.leadership.isNews f.receiver = false →
    s.watching = s.leadership.leading

/-- The manager follows leadership and has seen the latest value. -/
def isDelivered (m : Manager) : Bool :=
  m.follower.any fun f => f.begun && !m.agent.leadership.isNews f.receiver

namespace Standing.InStep

variable {s : Standing}

theorem caughtUp (h : s.InStep) (hrun : s.running = true) :
    { s with
      watching := s.leadership.leading
      follower := some { receiver := s.leadership.caughtUp, begun := true } }.InStep where
  daemon := h.daemon
  scrapeCluster := h.scrapeCluster
  visible := h.visible
  running := fun _ => hrun
  seen := by
    rintro _ ⟨rfl⟩
    exact Nat.le_refl _
  begun := fun _ => ⟨_, rfl, rfl⟩
  current := fun _ _ _ _ => rfl

/-- A manager that has just subscribed. -/
theorem subscribe (h : s.InStep) (hrun : s.running = true) (hwatching : s.watching = false)
    (name : String) :
    { s with
      leadership := (s.leadership.subscribe name).2
      follower := some { receiver := (s.leadership.subscribe name).1 } }.InStep where
  daemon := h.daemon
  scrapeCluster := h.scrapeCluster
  visible := h.visible
  running := fun _ => hrun
  seen := by
    rintro _ ⟨rfl⟩
    exact Nat.le_refl _
  begun := fun hw => absurd hw (by simp [hwatching])
  current := by
    rintro _ ⟨rfl⟩ hbegun
    exact absurd hbegun Bool.false_ne_true

theorem stop (h : s.InStep) (name : String) :
    { s with
      leadership := s.leadership.unsubscribe name
      running := false, watching := false, follower := none }.InStep where
  daemon := h.daemon
  scrapeCluster := h.scrapeCluster
  visible := h.visible
  running := fun hf => absurd rfl hf
  seen := fun _ h => absurd h (Option.not_mem_none _)
  begun := fun hw => absurd hw Bool.false_ne_true
  current := fun _ h => absurd h (Option.not_mem_none _)

theorem transition (h : s.InStep) {f : Leadership → Leadership} (hf : Leadership.IsTransition f) :
    { s with leadership := f s.leadership }.InStep := by
  obtain ⟨hd, ⟨hpublished, hleading⟩ | ⟨value, hpublished, hleading⟩⟩ :=
    Leadership.published_of_isTransition hf h.daemon
  · refine ⟨hd, h.scrapeCluster, ?_, h.running, ?_, h.begun, ?_⟩
    · have hvisible : (f s.leadership).visible = s.leadership.visible := by
        simp only [Leadership.visible, hpublished, hd, h.daemon]
      exact hvisible.trans (h.visible.trans hleading.symm)
    · simpa only [hpublished] using h.seen
    · simpa only [Leadership.isNews, hpublished, hleading] using h.current
  · refine ⟨hd, h.scrapeCluster, ?_, h.running, fun g hg => ?_, h.begun, fun g hg _ hnews => ?_⟩
    · simp only [Leadership.visible, hpublished, hleading, List.getLast?_append,
        List.getLast?_singleton, Option.some_or, Option.getD_some]
    · have hseen := h.seen g hg
      simp only [hpublished, List.length_append, List.length_singleton]
      omega
    · -- nobody has seen the value that was just published
      have hseen := h.seen g hg
      simp only [Leadership.isNews, hpublished, List.length_append, List.length_singleton,
        decide_eq_false_iff_not, not_not] at hnews
      omega

end Standing.InStep

/-! ## Beginning and ending the watch of services -/

variable {m m' m'' : Manager}

theorem standing_wake (m : Manager) (t : ManagerTask) : (m.wake t).standing = m.standing := by
  unfold wake
  split <;> rfl

theorem discoverer_wake (m : Manager) (t : ManagerTask) :
    (m.wake t).agent.discoverer = m.agent.discoverer := by
  unfold wake
  split <;> rfl

theorem standing_resume (hrun : m.running = true) :
    m.resume.standing = { m.standing with watching := true } := by
  unfold resume
  cases hservices : m.services with
  | some w => simp [hrun, standing, hservices]
  | none =>
    rw [if_neg (by simp [hrun])]
    exact standing_wake (m.putWatch .service { kind := .service }) .services

theorem standing_pause (m : Manager) :
    m.pause.standing = { m.standing with watching := false } := by
  unfold pause
  split
  · next hnone => simp [standing, hnone]
  · next w _ =>
    exact standing_wake
      { m with services := none, retired := m.retired ++ [{ w with phase := .ended }] } .retired

/-- Where services are watched, of all targets of the cluster only those outlive the end of that
    which were held without their resources. -/
theorem Sound.unguarded_of_pause (hs : m.Sound) (hwatching : m.services.isSome = true)
    {target : String} (ht : IsClusterTarget target) (hh : m.pause.Holds target) :
    m.Holds target ∧ target ≠ Resource.apiServer.targetName ∧ ¬m.Remembers target := by
  obtain ⟨w, hw⟩ := Option.isSome_iff_exists.mp hwatching
  have hd : m.pause.agent.discoverer =
      m.agent.discoverer.deleteClusterScoped m.clusterScoped := by
    simp only [Manager.pause, hw, purge, onDiscoverer, retire, discoverer_wake]
    unfold wake
    split <;> rfl
  rw [Holds, hd] at hh
  obtain ⟨hheld, hother⟩ := hs.discoverer.holds_deleteClusterScoped hh
  refine ⟨hheld, ?_, ?_⟩
  · rintro rfl
    exact hs.discoverer.not_holds_deleteClusterScoped m.clusterScoped hh
  · rintro ⟨r, hr, rfl⟩
    exact hother r (List.mem_filter.mpr ⟨hr, ht.isClusterScoped⟩) rfl

theorem Sound.holds_of_pause (hs : m.Sound) {target : String} (ht : IsClusterTarget target)
    (hh : m.pause.Holds target) : m.Holds target := by
  cases hwatching : m.services.isSome with
  | true => exact (hs.unguarded_of_pause hwatching ht hh).1
  | false =>
    have hnone : m.services = none := by simpa using hwatching
    rwa [Manager.pause, hnone] at hh

/-! ## Tasks -/

/-- What tasks do while leadership stays as it is. A target of the cluster that is new is there
    because the agent leads. When services are not watched any longer the agent does not lead, and
    the targets of the cluster that are left were held without their resources. -/
structure Follows (m m' : Manager) : Prop where
  tidies : Tidies m m'
  leadership : m'.agent.leadership = m.agent.leadership
  inStep : m'.standing.InStep
  gains : ∀ target, IsClusterTarget target → m'.Holds target → m.Holds target ∨ m.leading = true
  ends : m.standing.watching = true → m'.standing.watching = false → m.leading = false
  leaves : m.standing.watching = true → m'.standing.watching = false →
    ∀ target, IsClusterTarget target → m'.Holds target →
      m.Holds target ∧ target ≠ Resource.apiServer.targetName ∧ ¬m.Remembers target

theorem Follows.leading_eq (h : Follows m m') : m'.leading = m.leading := by
  rw [leading, leading, h.leadership]

theorem Follows.trans (h : Follows m m') (h' : Follows m' m'') : Follows m m'' := by
  have hleading := h.leading_eq
  refine ⟨h.tidies.trans h'.tidies, h'.leadership.trans h.leadership, h'.inStep,
    fun target ht hh => ?_, fun hw hw'' => ?_, fun hw hw'' target ht hh => ?_⟩
  · rcases h'.gains target ht hh with hheld | hlead
    · exact h.gains target ht hheld
    · exact Or.inr (hleading ▸ hlead)
  · cases hw' : m'.standing.watching with
    | true => exact hleading ▸ h'.ends hw' hw''
    | false => exact h.ends hw hw'
  · cases hw' : m'.standing.watching with
    | true =>
      obtain ⟨hheld, hname, hnot⟩ := h'.leaves hw' hw'' target ht hh
      have hbefore := (h.tidies.holds target hname hheld).resolve_left hnot
      exact ⟨hbefore.1, hname, hbefore.2⟩
    | false =>
      have hnot : ¬m'.leading = true := by simp [hleading, h.ends hw hw']
      exact h.leaves hw hw' target ht ((h'.gains target ht hh).resolve_right hnot)

theorem Sound.carries (hs : m.Sound) : m.Carries fun _ => True :=
  ⟨hs, fun _ _ => trivial, fun _ _ _ _ _ _ => trivial, fun _ _ _ _ _ _ => trivial,
    fun _ _ _ _ _ _ => trivial⟩

theorem follows_of_steady (hi : m.standing.InStep) (ht : Tidies m m')
    (h : Steady (fun _ => True) m m') : Follows m m' := by
  have hsame : m'.standing.watching = m.standing.watching := congrArg (·.watching) h.standing
  have hkept : m.standing.watching = true → m'.standing.watching ≠ false := by
    intro hw hw'
    rw [hsame, hw] at hw'
    cases hw'
  refine ⟨ht, congrArg (·.leadership) h.standing, h.standing ▸ hi, fun target htarget hh => ?_,
    fun hw hw' => absurd hw' (hkept hw), fun hw hw' => absurd hw' (hkept hw)⟩
  exact (h.gains target htarget hh).imp_right And.left

theorem Follows.refl (hs : m.Sound) (hi : m.standing.InStep) : Follows m m :=
  follows_of_steady hi (.refl hs) (.refl hs.carries)

/-- The manager after its task has looked at leadership, before it acts. -/
def looked (m : Manager) : Manager :=
  { m with follower := some { receiver := m.agent.leadership.caughtUp, begun := true } }

theorem Standing.InStep.looked (hi : m.standing.InStep) (hrun : m.running = true) {watching : Bool}
    (hwatching : watching = m.leading) : { m.looked.standing with watching }.InStep := by
  rw [hwatching]
  exact hi.caughtUp hrun

/-- What the task does to an agent that leads. -/
theorem Sound.resume_follows (hs : m.Sound) (hi : m.standing.InStep) (hrun : m.running = true)
    (hlead : m.leading = true) : Follows m m.looked.resume := by
  have hl : Tidies m m.looked := hs.tidies_of_eq rfl rfl
  have hstanding := standing_resume (m := m.looked) hrun
  have hends : m.looked.resume.standing.watching ≠ false := by simp [hstanding]
  refine ⟨hl.trans hl.sound.resume_tidies, congrArg (·.leadership) hstanding, ?_,
    fun target _ hh => Or.inr hlead, fun _ hw => absurd hw hends, fun _ hw => absurd hw hends⟩
  rw [hstanding]
  exact hi.looked hrun hlead.symm

/-- What the task does to an agent that does not lead. -/
theorem Sound.pause_follows (hs : m.Sound) (hi : m.standing.InStep) (hrun : m.running = true)
    (hlead : m.leading = false) : Follows m m.looked.pause := by
  have hl : Tidies m m.looked := hs.tidies_of_eq rfl rfl
  have hstanding := standing_pause m.looked
  refine ⟨hl.trans hl.sound.pause_tidies, congrArg (·.leadership) hstanding, ?_,
    fun target ht hh => Or.inl (hl.sound.holds_of_pause ht hh), fun _ _ => hlead,
    fun hw _ target ht hh => hl.sound.unguarded_of_pause hw ht hh⟩
  rw [hstanding]
  exact hi.looked hrun hlead.symm

/-- What the task does when services are watched exactly if the agent leads. -/
theorem Sound.looked_follows (hs : m.Sound) (hi : m.standing.InStep) (hrun : m.running = true)
    (hwatching : m.services.isSome = m.leading) : Follows m m.looked := by
  have hkept : m.standing.watching = true → m.looked.standing.watching ≠ false := by
    intro hw hw'
    exact absurd (hw.symm.trans hw') (by simp)
  exact ⟨hs.tidies_of_eq rfl rfl, rfl, hi.looked hrun hwatching, fun target _ hh => Or.inl hh,
    fun hw hw' => absurd hw' (hkept hw), fun hw hw' => absurd hw' (hkept hw)⟩

/-- Whether there was something to see or not, services are watched exactly if the agent leads when
    the task of following leadership waits again. -/
theorem Sound.runLeadership_follows (hs : m.Sound) (hi : m.standing.InStep) :
    Follows m m.runLeadership := by
  cases hf : m.follower with
  | none =>
    rw [Manager.runLeadership, hf]
    exact .refl hs hi
  | some f =>
    have hmem : f ∈ m.standing.follower := hf
    have hrun : m.running = true := hi.running (Option.ne_none_iff_exists'.mpr ⟨f, hf⟩)
    have hleading : m.agent.leadership.visible = m.leading := hi.visible
    have htask : m.runLeadership =
        if f.begun then if m.agent.leadership.isNews f.receiver then m.looked.follow else m.looked
        else if m.agent.leadership.visible then m.looked.resume
        else m.looked := by
      rw [Manager.runLeadership, hf]
      rfl
    rw [htask]
    split
    · next hbegun =>
      split
      · unfold Manager.follow
        split
        · next hvisible => exact hs.resume_follows hi hrun (hleading ▸ hvisible)
        · next hvisible =>
          exact hs.pause_follows hi hrun (hleading ▸ Bool.eq_false_iff.mpr hvisible)
      · next hnews =>
        exact hs.looked_follows hi hrun (hi.current f hmem hbegun (Bool.eq_false_iff.mpr hnews))
    · next hbegun =>
      split
      · next hvisible => exact hs.resume_follows hi hrun (hleading ▸ hvisible)
      · next hvisible =>
        refine hs.looked_follows hi hrun ?_
        -- leadership has not been followed yet, so services are not watched
        have hnone : m.services.isSome = false := by
          by_contra hw
          obtain ⟨g, hg, hg'⟩ := hi.begun (Bool.not_eq_false _ ▸ hw)
          rw [Option.mem_unique hmem hg] at hbegun
          exact hbegun hg'
        rw [hnone, ← hleading, Bool.eq_false_iff.mpr hvisible]

theorem Sound.runTask_follows (hs : m.Sound) (hi : m.standing.InStep) (t : ManagerTask) :
    Follows m (m.runTask t) := by
  by_cases ht : t = .leadership
  · rw [ht]
    exact hs.runLeadership_follows hi
  · exact follows_of_steady hi (hs.runTask_tidies t) (hs.carries.runTask_steady ht)

theorem Sound.settle_follows (hs : m.Sound) (hi : m.standing.InStep) : Follows m m.settle := by
  refine settleWithin_keeps (Q := Follows m) (fun m' ts h => ?_) (fun m' t h => ?_) _ (.refl hs hi)
  · have hpop : Tidies m' { m' with ready := ts } := h.tidies.sound.tidies_of_eq rfl rfl
    have hc := h.tidies.sound.carries
    exact h.trans (follows_of_steady h.inStep hpop
      (hc.steady_of_eq rfl rfl rfl hc.pods hc.services hc.retired))
  · exact h.trans (h.tidies.sound.runTask_follows h.inStep t)

/-! ## Moves -/

/-- What may happen to a manager that nobody tells from outside to watch services or not. -/
def Move.IsInternal : Move → Prop
  | .resume => False
  | .pause => False
  | .changeLeadership f => Leadership.IsTransition f
  | _ => True

/-- What every such move does. -/
structure Turn (m m' : Manager) : Prop where
  inStep : m'.standing.InStep
  gains : ∀ target, IsClusterTarget target → m'.Holds target → m.Holds target ∨ m'.leading = true
  leaves : m.standing.watching = true → m'.standing.watching = false →
    ∀ target, IsClusterTarget target → m'.Holds target →
      m.Holds target ∧ target ≠ Resource.apiServer.targetName ∧ ¬m.Remembers target

theorem Follows.turn (h : Follows m m') : Turn m m' :=
  ⟨h.inStep, fun target ht hh => by rw [h.leading_eq]; exact h.gains target ht hh, h.leaves⟩

/-- A change during which services are watched as before. -/
theorem turn_of_watching (hi : m'.standing.InStep)
    (hsame : m'.standing.watching = m.standing.watching)
    (hgains : ∀ target, IsClusterTarget target → m'.Holds target →
      m.Holds target ∨ m'.leading = true) : Turn m m' := by
  refine ⟨hi, hgains, fun hw hw' => ?_⟩
  rw [hsame, hw] at hw'
  cases hw'

theorem turn_of_steady (hi : m.standing.InStep) (h : Steady (fun _ => True) m m') : Turn m m' := by
  refine turn_of_watching (h.standing ▸ hi) (congrArg (·.watching) h.standing)
    fun target ht hh => ?_
  rw [leading_of_standing h.standing]
  exact (h.gains target ht hh).imp_right And.left

theorem Sound.start_turn (hs : m.Sound) (hi : m.standing.InStep) : Turn m m.start := by
  cases hrun : m.running with
  | true =>
    rw [Manager.start, hrun]
    exact turn_of_steady hi (.refl hs.carries)
  | false =>
    have hbegun := hs.carries.begun_steady
    have hwatching : m.standing.watching = false := by
      by_contra hw
      obtain ⟨f, hf, -⟩ := hi.begun (Bool.not_eq_false _ ▸ hw)
      have hran := hi.running (Option.ne_none_iff_exists'.mpr ⟨f, hf⟩)
      rw [show m.standing.running = false from hrun] at hran
      cases hran
    have hcluster : m.begun.scrapeCluster = true :=
      (congrArg (·.scrapeCluster) hbegun.standing).trans hi.scrapeCluster
    have hl : m.begun.agent.leadership = m.agent.leadership :=
      congrArg (·.leadership) hbegun.standing
    have hdaemon : m.begun.agent.leadership.daemon = true := by
      rw [hl]
      exact hi.daemon
    have hstart : m.start = m.begun.subscribe := by
      rw [start_of_not_running hrun, hcluster, hdaemon]
      rfl
    have hstanding : m.start.standing =
        { m.begun.standing with
          leadership := (m.begun.agent.leadership.subscribe subscriberName).2
          follower := some
            { receiver := (m.begun.agent.leadership.subscribe subscriberName).1 } } := by
      rw [hstart]
      exact standing_wake _ _
    refine turn_of_watching ?_ ?_ fun target ht hh => ?_
    · rw [hstanding, hl, hbegun.standing]
      exact Standing.InStep.subscribe (s := { m.standing with running := true })
        ⟨hi.daemon, hi.scrapeCluster, hi.visible, fun _ => rfl, hi.seen, hi.begun, hi.current⟩
        rfl hwatching subscriberName
    · rw [hstanding, hbegun.standing]
      rfl
    · have hd : m.start.agent.discoverer = m.begun.agent.discoverer := by
        rw [hstart]
        exact discoverer_wake _ _
      have hlead : m.start.leading = m.leading := by
        have hsubscribed := congrArg (·.leadership.leading) hstanding
        rw [hl] at hsubscribed
        exact hsubscribed
      rw [Holds, hd] at hh
      rw [hlead]
      exact (hbegun.gains target ht hh).imp_right And.left

theorem Sound.stop_turn (hs : m.Sound) (hi : m.standing.InStep) : Turn m m.stop := by
  cases hrun : m.running with
  | false =>
    rw [stop_of_not_running hrun]
    exact turn_of_steady hi (.refl hs.carries)
  | true =>
    have hnothing := hs.not_holds_stop hrun
    refine ⟨?_, fun target _ hh => absurd hh (hnothing target),
      fun _ _ target _ hh => absurd hh (hnothing target)⟩
    rw [hs.carries.standing_stop hrun]
    exact hi.stop subscriberName

theorem standing_changeLeadership (m : Manager) (f : Leadership → Leadership) :
    (m.changeLeadership f).standing = { m.standing with leadership := f m.agent.leadership } := by
  unfold changeLeadership
  dsimp only
  split
  · rfl
  · split
    · exact standing_wake _ _
    · rfl

theorem discoverer_changeLeadership (m : Manager) (f : Leadership → Leadership) :
    (m.changeLeadership f).agent.discoverer = m.agent.discoverer := by
  unfold changeLeadership
  dsimp only
  split
  · rfl
  · split
    · exact discoverer_wake _ _
    · rfl

theorem changeLeadership_turn (hi : m.standing.InStep) {f : Leadership → Leadership}
    (hf : Leadership.IsTransition f) : Turn m (m.changeLeadership f) := by
  have hstanding := standing_changeLeadership m f
  refine turn_of_watching ?_ (congrArg (·.watching) hstanding) fun target _ hh => ?_
  · rw [hstanding]
    exact hi.transition hf
  · rw [Holds, discoverer_changeLeadership] at hh
    exact Or.inl hh

theorem changeSettings_turn (hi : m.standing.InStep) (f : LiveSettings → LiveSettings) :
    Turn m (m.changeSettings f) := by
  let changed : Manager := { m with agent := { m.agent with live := f m.agent.live } }
  have hchanged : (m.changeSettings f).standing = changed.standing ∧
      (m.changeSettings f).agent.discoverer = m.agent.discoverer := by
    unfold changeSettings
    dsimp only
    split
    · exact ⟨standing_wake changed .resync, discoverer_wake changed .resync⟩
    · exact ⟨rfl, rfl⟩
  refine turn_of_watching ?_ (congrArg (·.watching) hchanged.1) fun target _ hh => ?_
  · rw [hchanged.1]
    exact ⟨hi.daemon, hi.scrapeCluster, hi.visible, hi.running, hi.seen, hi.begun, hi.current⟩
  · rw [Holds, hchanged.2] at hh
    exact Or.inl hh

theorem Sound.move_turn (hs : m.Sound) (hi : m.standing.InStep) {mv : Move}
    (hmv : mv.IsInternal) : Turn m (m.move mv) := by
  have hc := hs.carries
  cases mv with
  | start => exact hs.start_turn hi
  | stop => exact hs.stop_turn hi
  | resume => exact hmv.elim
  | pause => exact hmv.elim
  | report kind e => exact turn_of_steady hi (hc.event_steady fun _ _ _ => trivial)
  | endWatch kind => exact turn_of_steady hi (hc.endWatch_steady kind)
  | enqueue kind => exact turn_of_steady hi (hc.enqueue_steady kind)
  | takeNext kind => exact turn_of_steady hi (hc.takeNext_steady kind)
  | apply kind e => exact turn_of_steady hi (hc.apply_steady kind fun _ _ => trivial)
  | task t => exact (hs.runTask_follows hi t).turn
  | settle => exact (hs.settle_follows hi).turn
  | changeSettings f => exact changeSettings_turn hi f
  | changeLeadership f => exact changeLeadership_turn hi hmv
  | resync => exact turn_of_steady hi hc.resync_steady
  | adopt => exact turn_of_steady hi hc.adopt_steady
  | replay r => exact turn_of_steady hi (hc.replay_steady trivial)

/-! ## Runs -/

/-- No end of the watch of services takes the target away: services are not watched although the
    agent leads, or nothing is remembered of the resource. -/
def Unguarded (target : String) (m : Manager) : Prop :=
  m.leading = true ∧ m.services.isSome = false ∨
    target ≠ Resource.apiServer.targetName ∧ ¬m.Remembers target

theorem inStep_create (settings : Settings) (nodeName : String) :
    (create settings nodeName true true).standing.InStep :=
  ⟨rfl, rfl, rfl, fun h => absurd rfl h, fun _ h => absurd h (Option.not_mem_none _),
    fun hw => absurd hw Bool.false_ne_true, fun _ h => absurd h (Option.not_mem_none _)⟩

theorem inStep_run (hs : m.Sound) (hi : m.standing.InStep) {moves : List Move}
    (hmoves : ∀ mv ∈ moves, mv.IsInternal) : (m.run moves).standing.InStep := by
  induction moves generalizing m with
  | nil => exact hi
  | cons mv moves ih =>
    have hturn := hs.move_turn hi (hmoves mv List.mem_cons_self)
    exact ih (hs.move mv) hturn.inStep fun mv' hmv' => hmoves mv' (List.mem_cons_of_mem _ hmv')

/-- While services are not watched, whatever is held of the cluster has been held since a moment
    when it was unguarded. -/
theorem since_unguarded (settings : Settings) (nodeName : String) {moves : List Move}
    (hmoves : ∀ mv ∈ moves, mv.IsInternal) {target : String} (ht : IsClusterTarget target)
    (hwatching : ((create settings nodeName true true).run moves).services.isSome = false)
    (hh : ((create settings nodeName true true).run moves).Holds target) :
    (create settings nodeName true true).Since moves (Unguarded target)
      fun m => m.Holds target := by
  let start := create settings nodeName true true
  have hstart : start.Sound := sound_create settings nodeName true true
  induction moves using List.reverseRecOn with
  | nil => exact absurd hh (not_holds_create settings nodeName true true target)
  | append_singleton moves mv ih =>
    have hrun : start.run (moves ++ [mv]) = (start.run moves).move mv := run_append _ _ _
    have hbefore : ∀ mv' ∈ moves, mv'.IsInternal := fun mv' hmv' =>
      hmoves mv' (List.mem_append_left _ hmv')
    have hi := inStep_run hstart (inStep_create settings nodeName) hbefore
    have hturn := (hstart.run moves).move_turn hi
      (hmoves mv (List.mem_append_right _ (List.mem_singleton_self mv)))
    rw [← hrun] at hturn
    cases hw : (start.run moves).standing.watching with
    | true =>
      obtain ⟨hheld, hname, hnot⟩ := hturn.leaves hw hwatching target ht hh
      have hsince : start.Since moves (Unguarded target) fun m => m.Holds target :=
        since_now (Or.inr ⟨hname, hnot⟩) hheld
      exact hsince.concat hh
    | false =>
      rcases hturn.gains target ht hh with hheld | hleading
      · exact (ih hbefore hw hheld).concat hh
      · exact since_now (Or.inl ⟨hleading, hwatching⟩) hh

/-- In whatever order leadership and settings change and tasks take in what is reported, when the
    latest value of leadership has been delivered and the agent does not lead, a target of the
    cluster is held exactly if it has been held since a moment when it was unguarded. -/
theorem holds_iff_since_unguarded (settings : Settings) (nodeName : String) (moves : List Move)
    (hmoves : ∀ mv ∈ moves, mv.IsInternal) :
    let start := create settings nodeName true true
    let m := start.run moves
    m.isDelivered = true → m.leading = false → ∀ target, IsClusterTarget target →
      (m.Holds target ↔ start.Since moves (Unguarded target) fun m => m.Holds target) := by
  intro start m hdelivered hleading target ht
  refine ⟨fun hh => since_unguarded settings nodeName hmoves ht ?_ hh, Since.now⟩
  have hi : m.standing.InStep :=
    inStep_run (sound_create settings nodeName true true) (inStep_create settings nodeName) hmoves
  obtain ⟨f, hf, hseen⟩ := (Option.any_eq_true _ _).mp hdelivered
  simp only [Bool.and_eq_true, Bool.not_eq_true'] at hseen
  exact (hi.current f hf hseen.1 hseen.2).trans hleading

/-- An agent gains leadership, applies a rule for the API server and loses leadership again before
    the task of following leadership looks. The task sees that the agent does not lead, finds no
    watch of services to end, and leaves the target of the API server where it is. -/
theorem exists_held_without_leading :
    let apiServer : Rule :=
      { name := "a", pluginType := "prometheus", selectors := { resourceType := "apiserver" } }
    let m := (create {} "node-1" true true).run
      [.start, .settle, .changeLeadership (·.lead true "node-1"),
        .changeSettings (·.setWired { rules := [apiServer] }), .resync,
        .changeLeadership (·.lead false "node-2"), .settle]
    m.isDelivered = true ∧ m.leading = false ∧
      m.agent.discoverer.targets.map (·.name) = [Resource.apiServer.targetName] := by
  decide +kernel

/-- That target has been held since the rule was applied, when services were not watched although
    the agent led. -/
theorem since_unguarded_of_missed_transition :
    let apiServer : Rule :=
      { name := "a", pluginType := "prometheus", selectors := { resourceType := "apiserver" } }
    let start := create {} "node-1" true true
    let moves : List Move :=
      [.start, .settle, .changeLeadership (·.lead true "node-1"),
        .changeSettings (·.setWired { rules := [apiServer] }), .resync,
        .changeLeadership (·.lead false "node-2"), .settle]
    start.Since moves (Unguarded Resource.apiServer.targetName) fun m =>
      m.Holds Resource.apiServer.targetName := by
  intro apiServer start moves
  have hinternal : ∀ mv ∈ moves, mv.IsInternal := by
    simp only [moves, List.forall_mem_cons, Move.IsInternal, true_and]
    exact ⟨Or.inl ⟨true, "node-1", rfl⟩, Or.inl ⟨false, "node-2", rfl⟩, fun _ h =>
      absurd h List.not_mem_nil⟩
  have hstate : (start.run moves).isDelivered = true ∧ (start.run moves).leading = false ∧
      ∃ t ∈ (start.run moves).agent.discoverer.targets,
        t.name = Resource.apiServer.targetName := by
    decide +kernel
  have hiff := holds_iff_since_unguarded {} "node-1" moves hinternal hstate.1 hstate.2.1
    Resource.apiServer.targetName isClusterTarget_apiServer
  have hheld : (start.run moves).Holds Resource.apiServer.targetName :=
    Discoverer.exists_mem_targets_iff.mp hstate.2.2
  exact hiff.mp hheld

end Manager

end ScrapeDiscovery

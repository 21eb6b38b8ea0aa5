import ScrapeDiscovery.Proofs.Manager.Steady

/-!
# Moves that have nothing to do with settings

Events, replays, changes of leadership and what follows from them neither write
settings nor look at them, and they install and remove no rules. They leave the
`Footing` of a manager as it is: the settings in effect, with whatever was written
and not looked at yet, and the installed rules.

Results:
* `footing_runTask`: every task but the one for settings.
* `footing_move`: every move that `isAside`.
* `live_stop`: a stop leaves the settings in effect alone too.
-/

namespace ScrapeDiscovery.Manager

/-- Whether a move neither writes settings nor looks at them. -/
def Move.isAside : Move → Bool
  | .start | .stop | .settle | .changeSettings _ | .resync | .adopt | .task .resync => false
  | _ => true

/-- The settings in effect and the installed rules of a manager. -/
structure Footing where
  live : LiveSettings
  pipelines : KeyMap Pipeline

/-- The footing of a manager. -/
def footing (m : Manager) : Footing := ⟨m.agent.live, m.agent.discoverer.pipelines⟩

theorem live_of_footing {m m' : Manager} (h : m'.footing = m.footing) :
    m'.agent.live = m.agent.live :=
  congrArg Footing.live h

theorem pipelines_of_footing {m m' : Manager} (h : m'.footing = m.footing) :
    m'.agent.discoverer.pipelines = m.agent.discoverer.pipelines :=
  congrArg Footing.pipelines h

theorem footing_onDiscoverer (m : Manager) {f : Discoverer → Discoverer}
    (hf : ∀ d, (f d).pipelines = d.pipelines) : (m.onDiscoverer f).footing = m.footing := by
  rw [footing, footing]
  exact congrArg (Footing.mk m.agent.live) (hf _)

theorem footing_foldl {α : Type} {f : Manager → α → Manager}
    (hf : ∀ m a, (f m a).footing = m.footing) (m : Manager) (as : List α) :
    (as.foldl f m).footing = m.footing :=
  as.foldlRecOn (motive := (footing · = m.footing)) f rfl fun m' h a _ => (hf m' a).trans h

theorem footing_wake (m : Manager) (t : ManagerTask) : (m.wake t).footing = m.footing := by
  unfold wake
  split <;> rfl

theorem footing_discover (m : Manager) (r : Resource) : (m.discover r).footing = m.footing :=
  footing_onDiscoverer _ fun d => d.pipelines_discover _ r

theorem footing_forget (m : Manager) (r : Resource) : (m.forget r).footing = m.footing :=
  footing_onDiscoverer _ fun d => (d.performAll_pipelines _).1

theorem footing_replay (m : Manager) (r : Resource) : (m.replay r).footing = m.footing :=
  footing_onDiscoverer _ fun d => d.pipelines_discover _ r

theorem footing_apply (m : Manager) (kind : ResourceKind) (e : ResourceEvent) :
    (m.apply kind e).footing = m.footing := by
  cases e with
  | applied r => exact footing_discover m r
  | deleted r => exact footing_forget m r
  | restarted rs =>
    exact (footing_foldl footing_discover _ rs).trans (footing_foldl footing_forget m _)

theorem footing_takeIn (m : Manager) (kind : ResourceKind) (es : List ResourceEvent) :
    (m.takeIn kind es).footing = m.footing :=
  footing_foldl (fun m e => footing_apply m kind e) m es

theorem footing_putWatch (m : Manager) (kind : ResourceKind) (w : Watch) :
    (m.putWatch kind w).footing = m.footing := by
  cases kind <;> rfl

theorem footing_beginWatch (m : Manager) (kind : ResourceKind) :
    (m.beginWatch kind).footing = m.footing :=
  (footing_wake _ _).trans (footing_putWatch m kind _)

theorem footing_changeWatch (m : Manager) (kind : ResourceKind) (f : Watch → Option Watch) :
    (m.changeWatch kind f).2.footing = m.footing := by
  unfold changeWatch
  split
  · rfl
  · next w _ => exact (footing_wake _ _).trans (footing_putWatch m kind w)

theorem footing_enqueue (m : Manager) (kind : ResourceKind) :
    (m.enqueue kind).footing = m.footing := by
  unfold enqueue
  split
  · rfl
  · exact footing_putWatch m kind _

theorem footing_takeNext (m : Manager) (kind : ResourceKind) :
    (m.takeNext kind).footing = m.footing := by
  unfold takeNext
  split
  · rfl
  · exact (footing_putWatch _ kind _).trans (footing_takeIn m _ _)

theorem footing_runWatch (m : Manager) (kind : ResourceKind) :
    (m.runWatch kind).footing = m.footing := by
  unfold runWatch
  split
  · rfl
  · next w _ =>
    have hturn := (footing_putWatch _ kind w.turned).trans (footing_takeIn m w.kind w.due)
    dsimp only
    split
    · exact hturn
    · exact (footing_wake _ _).trans hturn

theorem footing_retire (m : Manager) (w : Watch) : (m.retire w).footing = m.footing :=
  footing_wake _ .retired

theorem footing_resume (m : Manager) : m.resume.footing = m.footing := by
  unfold resume
  split
  · rfl
  · refine (footing_onDiscoverer _ fun d => ?_).trans (footing_beginWatch m .service)
    exact (d.performLeading_pipelines _ _).1

theorem footing_purge (m : Manager) : m.purge.footing = m.footing := by
  have hdelete : ∀ (rs : List Resource) (d : Discoverer),
      (rs.foldl Discoverer.deleteResource d).pipelines = d.pipelines := by
    intro rs
    induction rs with
    | nil => exact fun _ => rfl
    | cons r rs ih => exact fun d => (ih (d.deleteResource r)).trans (d.performAll_pipelines _).1
  refine footing_onDiscoverer _ fun d => ?_
  exact (Discoverer.performAll_pipelines _ _).1.trans (hdelete _ d)

theorem footing_pause (m : Manager) : m.pause.footing = m.footing := by
  unfold pause
  split
  · rfl
  · next w _ => exact (footing_purge _).trans (footing_retire _ w)

theorem footing_runRetired (m : Manager) : m.runRetired.footing = m.footing :=
  footing_foldl (f := drain) (fun m w => footing_takeIn m w.kind w.pending) _ m.retired

theorem footing_follow (m : Manager) : m.follow.footing = m.footing := by
  unfold follow
  split
  · exact footing_resume m
  · exact footing_pause m

theorem footing_runLeadership (m : Manager) : m.runLeadership.footing = m.footing := by
  unfold runLeadership
  split
  · rfl
  · dsimp only
    split
    · split
      · exact footing_follow _
      · rfl
    · split
      · exact footing_resume _
      · rfl

theorem footing_runTask (m : Manager) {t : ManagerTask} (ht : t ≠ .resync) :
    (m.runTask t).footing = m.footing := by
  cases t with
  | pods => exact footing_runWatch m .pod
  | services => exact footing_runWatch m .service
  | retired => exact footing_runRetired m
  | resync => exact absurd rfl ht
  | leadership => exact footing_runLeadership m

theorem footing_changeLeadership (m : Manager) (f : Leadership → Leadership) :
    (m.changeLeadership f).footing = m.footing := by
  unfold changeLeadership
  dsimp only
  split
  · rfl
  · split
    · exact footing_wake _ .leadership
    · rfl

theorem footing_move {mv : Move} (h : mv.isAside = true) (m : Manager) :
    (m.move mv).footing = m.footing := by
  cases mv with
  | resume => exact footing_resume m
  | pause => exact footing_pause m
  | report kind e => exact footing_changeWatch m kind _
  | endWatch kind => exact footing_changeWatch m kind _
  | enqueue kind => exact footing_enqueue m kind
  | takeNext kind => exact footing_takeNext m kind
  | apply kind e => exact footing_apply m kind e
  | task t =>
    refine footing_runTask m fun ht => ?_
    rw [ht] at h
    cases h
  | changeLeadership f => exact footing_changeLeadership m f
  | replay r => exact footing_replay m r
  | start => cases h
  | stop => cases h
  | settle => cases h
  | changeSettings f => cases h
  | resync => cases h
  | adopt => cases h

theorem footing_retireAny (m : Manager) (w : Option Watch) :
    (m.retireAny w).footing = m.footing := by
  cases w with
  | none => rfl
  | some w => exact footing_retire m w

theorem live_stop (m : Manager) : m.stop.agent.live = m.agent.live := by
  unfold stop
  split
  · rfl
  · let leadership := m.agent.leadership.unsubscribe subscriberName
    let m₀ : Manager := { m with running := false, agent := { m.agent with leadership } }
    have hended : m₀.endTasks.footing = m₀.footing :=
      (footing_runRetired _).trans ((footing_retireAny _ _).trans (footing_retireAny _ _))
    have hlive : m₀.endTasks.agent.live = m₀.agent.live := live_of_footing hended
    exact hlive

end ScrapeDiscovery.Manager

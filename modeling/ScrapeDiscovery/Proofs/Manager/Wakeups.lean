import ScrapeDiscovery.Proofs.Discoverer.Reconciliation
import ScrapeDiscovery.Proofs.Manager.Pickup
import ScrapeDiscovery.Proofs.Manager.Resync
import ScrapeDiscovery.Proofs.Settings.History

/-!
# No change of the settings is missed

Whoever has written settings since somebody looked has left a wakeup or will leave
one, unless the task is about to look anyway. An answer that says that nothing has
changed is the one before, and that one was applied before the task went on. So a
task that waits, with no wakeup to take and nobody about to leave one, has applied
what there is now.

Results:
* `InStep.act`, `InStep.run`: every step keeps the settings and the wakeups in step.
* `Attended.act`, `Attended.run`: every step keeps the installed rules those of the last answer,
  or the start or the task is about to install them.
* `installed_of_waiting`: a task that waits has missed nothing.
-/

namespace ScrapeDiscovery.Manager

theorem footing_launch (m : Manager) : m.launch.footing = m.footing := by
  have hpods : m.watchPods.footing = m.footing := footing_beginWatch m .pod
  have htasks : m.watchPods.startResync.footing = m.footing := by
    unfold startResync
    split
    · exact hpods
    · exact (footing_wake { m.watchPods with resyncing := true } .resync).trans hpods
  unfold launch
  dsimp only
  split
  · exact htasks
  · split
    · exact (footing_wake _ .leadership).trans htasks
    · exact (footing_resume _).trans htasks

namespace Pickup

/-! ## What every step keeps -/

/-- What is true of every manager with its start and its task under way. -/
structure InStep (c : Pickup) : Prop where
  upToDate : c.live.UpToDate
  /-- Whoever has written since the last look has left a wakeup, or will do so, or the task is
      about to look anyway. -/
  announced : c.live.dirty = true → c.live.wakeup = true ∨ 0 < c.unannounced ∨ c.stage = .woken
  answered : ∀ s, c.answers.getLast? = some s → s = c.live.combined

variable {c : Pickup}

/-- A change that is not about settings. -/
theorem InStep.of_live (h : c.InStep) {c' : Pickup} (hlive : c'.live = c.live)
    (hwriters : c'.unannounced = c.unannounced) (hanswers : c'.answers = c.answers)
    (hstage : c.stage = .woken → c'.stage = .woken) : c'.InStep := by
  refine ⟨?_, ?_, ?_⟩
  · rw [hlive]
    exact h.upToDate
  · rw [hlive, hwriters]
    exact fun hdirty => (h.announced hdirty).imp_right (Or.imp_right hstage)
  · rw [hlive, hanswers]
    exact h.answered

theorem InStep.write (h : c.InStep) {f : LiveSettings → LiveSettings}
    (hdirty : (f c.live).dirty = true) (hcombined : (f c.live).combined = c.live.combined) :
    (c.write f).InStep := by
  refine ⟨.of_dirty hdirty, fun _ => Or.inr (Or.inl (Nat.succ_pos _)), ?_⟩
  show ∀ s, c.answers.getLast? = some s → s = (f c.live).combined
  rw [hcombined]
  exact h.answered

theorem InStep.remove (h : c.InStep) (name : String) : (c.remove name).InStep := by
  unfold Pickup.remove
  split
  · exact h.write rfl rfl
  · exact h

theorem InStep.look (h : c.InStep) (next : Settings → Bool → PickupStage) :
    (c.look next).InStep := by
  have hlive : (c.look next).live = c.live.current.2 := rfl
  have hanswers : (c.look next).answers.getLast? = some c.live.current.1.1 :=
    List.getLast?_concat
  refine ⟨hlive ▸ h.upToDate.current, fun hdirty => ?_, fun s hs => ?_⟩
  · rw [hlive, LiveSettings.dirty_current] at hdirty
    cases hdirty
  · rw [hanswers] at hs
    rw [hlive, LiveSettings.combined_current, Option.some.inj hs]

theorem InStep.proceed (h : c.InStep) : c.proceed.InStep := by
  unfold Pickup.proceed
  split
  · exact h
  · next hstage => exact h.of_live rfl rfl rfl fun hwoken => by rw [hstage] at hwoken; cases hwoken
  · next hstage =>
    refine h.of_live (live_of_footing (footing_launch _)) rfl rfl fun hwoken => ?_
    rw [hstage] at hwoken
    cases hwoken
  · split
    · exact ⟨h.upToDate, fun _ => Or.inr (Or.inr rfl), h.answered⟩
    · exact h
  · exact h.look _
  · next hstage => exact h.of_live rfl rfl rfl fun hwoken => by rw [hstage] at hwoken; cases hwoken
  · next hstage => exact h.of_live rfl rfl rfl fun hwoken => by rw [hstage] at hwoken; cases hwoken
  · next hstage => exact h.of_live rfl rfl rfl fun hwoken => by rw [hstage] at hwoken; cases hwoken
  · next hstage => exact h.of_live rfl rfl rfl fun hwoken => by rw [hstage] at hwoken; cases hwoken

theorem InStep.act (h : c.InStep) (a : PickupAct) : (c.act a).InStep := by
  cases a with
  | setWired wired => exact h.write rfl rfl
  | update s =>
    simp only [Pickup.act]
    split
    · exact h.write rfl rfl
    · exact h.remove s.name
  | delete name => exact h.remove name
  | announce =>
    simp only [Pickup.act]
    split
    · exact h
    · exact ⟨h.upToDate, fun _ => Or.inl rfl, h.answered⟩
  | tick =>
    simp only [Pickup.act]
    split
    · exact h.of_live rfl rfl rfl fun _ => rfl
    · exact h
  | start =>
    simp only [Pickup.act]
    split
    · have hswitched : { c with manager := c.manager.switchOn }.InStep :=
        h.of_live rfl rfl rfl id
      exact hswitched.look _
    · exact h
  | stop =>
    simp only [Pickup.act]
    split
    · next hidle =>
      refine h.of_live (live_stop _) rfl rfl fun hwoken => ?_
      rcases hidle with hstage | hstage <;> rw [hstage] at hwoken <;> cases hwoken
    · exact h
  | proceed => exact h.proceed
  | aside mv =>
    simp only [Pickup.act]
    split
    · next haside => exact h.of_live (live_of_footing (footing_move haside _)) rfl rfl id
    · exact h

theorem InStep.run (h : c.InStep) (acts : List PickupAct) : (c.run acts).InStep := by
  induction acts generalizing c with
  | nil => exact h
  | cons a acts ih => exact ih (h.act a)

/-! ## The rules that are installed -/

variable {past : Manager → Prop}

/-- The installed rules are those that were installed when settings were applied to an earlier
    state. -/
def Installed (past : Manager → Prop) (s : Settings) (m : Manager) : Prop :=
  ∃ m₀, past m₀ ∧
    m.agent.discoverer.pipelines = (m₀.applySettings s).agent.discoverer.pipelines

/-- What the start or the task has done about the last answer. -/
def Attended (past : Manager → Prop) (c : Pickup) : Prop :=
  match c.stage with
  | .absent => True
  | .starting s | .adopting s => c.answers.getLast? = some s
  | _ => ∃ s, c.answers.getLast? = some s ∧ Installed past s c.manager

theorem Installed.of_footing {s : Settings} {m m' : Manager} (h : Installed past s m)
    (hm : m'.footing = m.footing) : Installed past s m' :=
  h.imp fun _ h₀ => ⟨h₀.1, (pipelines_of_footing hm).trans h₀.2⟩

/-- Something that is neither a look nor a change of the rules. -/
theorem Attended.of_footing (h : c.Attended past) {c' : Pickup} (hstage : c'.stage = c.stage)
    (hanswers : c'.answers = c.answers)
    (hsame : c'.manager.agent.discoverer.pipelines = c.manager.agent.discoverer.pipelines) :
    c'.Attended past := by
  have hinstalled : ∀ s, Installed past s c.manager → Installed past s c'.manager := fun s hs =>
    hs.imp fun _ h₀ => ⟨h₀.1, hsame.trans h₀.2⟩
  unfold Attended at h ⊢
  rw [hstage, hanswers]
  split at h
  · trivial
  · exact h
  · exact h
  · exact h.imp fun s hs => ⟨hs.1, hinstalled s hs.2⟩

/-- An answer that says that nothing has changed is the one before. -/
theorem answer_of_unchanged {l : LiveSettings} (h : l.current.1.2 = false) :
    l.current.1.1 = l.combined := by
  unfold LiveSettings.current at h ⊢
  split at h
  · next hdirty =>
    rw [if_pos hdirty]
    simpa using h
  · next hclean => rw [if_neg hclean]

theorem Attended.proceed (h : c.Attended past) (hc : c.InStep) (hnow : past c.manager) :
    c.proceed.Attended past := by
  cases hstage : c.stage with
  | absent =>
    rw [Pickup.proceed, hstage]
    exact h
  | starting s =>
    rw [Attended, hstage] at h
    rw [Pickup.proceed, hstage]
    exact ⟨s, h, c.manager, hnow, rfl⟩
  | adopting s =>
    rw [Attended, hstage] at h
    rw [Pickup.proceed, hstage]
    exact ⟨s, h, c.manager, hnow, rfl⟩
  | begun =>
    rw [Attended, hstage] at h
    obtain ⟨s, hs, hinstalled⟩ := h
    rw [Pickup.proceed, hstage]
    unfold Attended
    dsimp only
    split_ifs
    · trivial
    · exact ⟨s, hs, hinstalled.of_footing (footing_launch _)⟩
  | waiting =>
    rw [Attended, hstage] at h
    rw [Pickup.proceed, hstage]
    dsimp only
    split_ifs
    · exact h
    · rw [Attended, hstage]
      exact h
  | woken =>
    rw [Attended, hstage] at h
    obtain ⟨s, hs, hinstalled⟩ := h
    rw [Pickup.proceed, hstage]
    have hlast : (c.answers ++ [c.live.current.1.1]).getLast? = some c.live.current.1.1 :=
      List.getLast?_concat
    by_cases hchanged : c.live.current.1.2 = true
    · have hnext : (c.look fun s changed => if changed then .adopting s else .waiting).stage =
          .adopting c.live.current.1.1 := if_pos hchanged
      rw [Attended, hnext]
      exact hlast
    · have hnext : (c.look fun s changed => if changed then .adopting s else .waiting).stage =
          .waiting := if_neg hchanged
      have hsame : s = c.live.current.1.1 :=
        (hc.answered s hs).trans (answer_of_unchanged (Bool.eq_false_iff.mpr hchanged)).symm
      rw [Attended, hnext]
      exact ⟨s, hsame ▸ hlast, hinstalled⟩
  | adopted =>
    rw [Attended, hstage] at h
    rw [Pickup.proceed, hstage]
    exact h
  | replaying rs =>
    rw [Attended, hstage] at h
    cases rs with
    | nil =>
      rw [Pickup.proceed, hstage]
      exact h
    | cons r rs =>
      obtain ⟨s, hs, hinstalled⟩ := h
      rw [Pickup.proceed, hstage]
      exact ⟨s, hs, hinstalled.of_footing (footing_replay _ r)⟩

theorem Attended.write (h : c.Attended past) (f : LiveSettings → LiveSettings) :
    (c.write f).Attended past := h.of_footing rfl rfl rfl

theorem Attended.remove (h : c.Attended past) (name : String) :
    (c.remove name).Attended past := by
  unfold Pickup.remove
  split
  · exact h.write _
  · exact h

theorem Attended.act (h : c.Attended past) (hc : c.InStep) (hnow : past c.manager)
    (a : PickupAct) : (c.act a).Attended past := by
  cases a with
  | setWired wired => exact h.write _
  | update s =>
    simp only [Pickup.act]
    split
    · exact h.write _
    · exact h.remove s.name
  | delete name => exact h.remove name
  | announce =>
    simp only [Pickup.act]
    split
    · exact h
    · exact h.of_footing rfl rfl rfl
  | tick =>
    simp only [Pickup.act]
    split
    · next hstage =>
      rw [Attended, hstage] at h
      exact h
    · exact h
  | start =>
    simp only [Pickup.act]
    split
    · exact List.getLast?_concat
    · exact h
  | stop =>
    simp only [Pickup.act]
    split
    · trivial
    · exact h
  | proceed => exact h.proceed hc hnow
  | aside mv =>
    simp only [Pickup.act]
    split
    · next haside => exact h.of_footing rfl rfl (pipelines_of_footing (footing_move haside _))
    · exact h

theorem Attended.run (h : c.Attended past) (hc : c.InStep) {acts : List PickupAct}
    (hpast : ∀ xs, xs <+: acts → past (c.run xs).manager) : (c.run acts).Attended past := by
  induction acts generalizing c with
  | nil => exact h
  | cons a acts ih =>
    refine ih (h.act hc (hpast [] List.nil_prefix) a) (hc.act a) fun xs hxs => ?_
    exact hpast (a :: xs) (List.prefix_cons_inj a |>.mpr hxs)

/-! ## Nothing is missed -/

theorem sound_of_eq {m m' : Manager} (hs : m.Sound) (hcache : m'.cache = m.cache)
    (hd : m'.agent.discoverer = m.agent.discoverer) : m'.Sound :=
  (hs.tidies_of_eq hcache hd).sound

theorem sound_proceed (hs : c.manager.Sound) : c.proceed.manager.Sound := by
  have hlive : ∀ live, { c.manager with agent := { c.manager.agent with live } }.Sound :=
    fun _ => sound_of_eq hs rfl rfl
  unfold Pickup.proceed
  split
  · exact hs
  · exact (hs.applySettings_tidies _).sound
  · have htasks := (hs.beginWatch_tidies .pod).sound.startResync_tidies.sound
    show c.manager.launch.Sound
    unfold launch
    dsimp only
    split_ifs
    · exact htasks
    · exact htasks.subscribe_tidies.sound
    · exact htasks.resume_tidies.sound
  · split
    · exact hlive _
    · exact hs
  · exact hlive _
  · have hcount : c.manager.countReload.Sound := sound_of_eq hs rfl rfl
    exact (hcount.applySettings_tidies _).sound
  · exact hs
  · exact hs
  · exact hs.replay _

theorem sound_act (hs : c.manager.Sound) (a : PickupAct) : (c.act a).manager.Sound := by
  have hwrite : ∀ f, (c.write f).manager.Sound := fun _ => sound_of_eq hs rfl rfl
  have hremove : ∀ name, (c.remove name).manager.Sound := fun name => by
    unfold Pickup.remove
    split
    · exact hwrite _
    · exact hs
  cases a with
  | setWired wired => exact hwrite _
  | update s =>
    simp only [Pickup.act]
    split
    · exact hwrite _
    · exact hremove s.name
  | delete name => exact hremove name
  | announce =>
    simp only [Pickup.act]
    split
    · exact hs
    · exact sound_of_eq hs rfl rfl
  | tick =>
    simp only [Pickup.act]
    split <;> exact hs
  | start =>
    simp only [Pickup.act]
    split
    · exact sound_of_eq hs rfl rfl
    · exact hs
  | stop =>
    simp only [Pickup.act]
    split
    · exact hs.stop_tidies.sound
    · exact hs
  | proceed => exact sound_proceed hs
  | aside mv =>
    simp only [Pickup.act]
    split
    · exact hs.move mv
    · exact hs

theorem sound_run (hs : c.manager.Sound) (acts : List PickupAct) : (c.run acts).manager.Sound := by
  induction acts generalizing c with
  | nil => exact hs
  | cons a acts ih => exact ih (sound_act hs a)

/-- A manager that has not started. -/
def create (settings : Settings) (nodeName : String) (daemon scrapeCluster : Bool) : Pickup where
  manager := .create settings nodeName daemon scrapeCluster

theorem inStep_create (settings : Settings) (nodeName : String) (daemon scrapeCluster : Bool) :
    (create settings nodeName daemon scrapeCluster).InStep :=
  ⟨LiveSettings.upToDate_start settings, nofun, nofun⟩

/-- However writes, their wakeups, the steps of the start and of the task, the passing of the
    interval and everything else come in turn: while the task waits and neither a wakeup waits for
    it nor anybody who has written still has to leave one, nothing was written since somebody asked
    last; the answer then was what there is now, the rules of the document and after them those of
    the sources; and the installed rules are those that came of making exactly the rules of that
    answer the installed ones at some moment of the run, so of each name in it the last valid
    one. -/
theorem installed_of_waiting (settings : Settings) (nodeName : String)
    (daemon scrapeCluster : Bool) (acts : List PickupAct) :
    let start := create settings nodeName daemon scrapeCluster
    let c := start.run acts
    let d := c.manager.agent.discoverer
    c.stage = .waiting → c.live.wakeup = false → c.unannounced = 0 →
      c.live.dirty = false ∧
      ∃ s, c.answers.getLast? = some s ∧
        s.Agrees (c.live.wired.combine c.live.runtime) ∧
        ∃ xs ys, acts = xs ++ ys ∧
          let m := (start.run xs).manager
          d.pipelines =
            ((m.agent.discoverer.setAnnotationPolicy s.annotationExcludes
              s.annotationsDisabled).handleAll m.leading s.rules).2.pipelines ∧
          ∀ name, d.rule? name =
            if name ∈ s.rules.map (·.name) then
              (lastValid? s.rules name).or (m.agent.discoverer.rule? name)
            else none := by
  intro start c d hstage hwakeup hwriters
  have hstart := inStep_create settings nodeName daemon scrapeCluster
  have hc : c.InStep := hstart.run acts
  have hattended : c.Attended fun m => ∃ xs, xs <+: acts ∧ (start.run xs).manager = m :=
    Attended.run (c := start) trivial hstart fun xs hxs => ⟨xs, hxs, rfl⟩
  rw [Attended, hstage] at hattended
  obtain ⟨s, hs, _, ⟨xs, ⟨ys, hacts⟩, rfl⟩, hpipelines⟩ := hattended
  have hclean : c.live.dirty = false := by
    by_contra hdirty
    rcases hc.announced (Bool.not_eq_false _ |>.mp hdirty) with hleft | hlater | hwoken
    · rw [hwakeup] at hleft
      cases hleft
    · omega
    · rw [hstage] at hwoken
      cases hwoken
  have hagrees : s.Agrees (c.live.wired.combine c.live.runtime) :=
    hc.answered s hs ▸ hc.upToDate hclean
  refine ⟨hclean, s, hs, hagrees, xs, ys, hacts.symm,
    hpipelines, fun name => ?_⟩
  have hsound : (start.run xs).manager.Sound :=
    sound_run (sound_create settings nodeName daemon scrapeCluster) xs
  have hpolicy := hsound.discoverer.setAnnotationPolicy s.annotationExcludes s.annotationsDisabled
  have hbefore : (((start.run xs).manager.agent.discoverer.setAnnotationPolicy s.annotationExcludes
      s.annotationsDisabled).rule? name) = (start.run xs).manager.agent.discoverer.rule? name := by
    rw [Discoverer.rule?, Discoverer.rule?, pipelines_setAnnotationPolicy]
  rw [← hbefore, ← hpolicy.rule?_handleAll (start.run xs).manager.leading s.rules name]
  exact congrArg (fun pipelines => (pipelines.get? name).map (·.rule)) hpipelines

/-- The document is replaced twice. The second write comes when the task has found the first one
    and not applied it yet, and its wakeup is left when the task waits again. In the end the task
    waits with nothing left to do, and the rule of the second document is installed in the place
    of the others. -/
theorem installed_after_late_write :
    let rule : String → Rule := fun name =>
      { name, pluginType := "prometheus", selectors := { images := ["redis:*"] } }
    let acts : List PickupAct :=
      [.start, .proceed, .proceed, .setWired { rules := [rule "b"] }, .announce, .proceed, .proceed,
        .setWired { rules := [rule "c"] }, .proceed, .proceed, .proceed, .announce, .proceed,
        .proceed, .proceed, .proceed, .proceed]
    let c := (create { rules := [rule "a"] } "node-1" false true).run acts
    c.stage = .waiting ∧ c.live.wakeup = false ∧ c.unannounced = 0 ∧ c.live.dirty = false ∧
      c.manager.agent.discoverer.rule? "c" = some (rule "c") ∧
        ∀ name, name ≠ "c" → c.manager.agent.discoverer.rule? name = none := by
  intro rule acts c
  have hstage : c.stage = .waiting := by decide +kernel
  have hwakeup : c.live.wakeup = false := by decide +kernel
  have hwriters : c.unannounced = 0 := by decide +kernel
  obtain ⟨hclean, s, -, hagrees, xs, ys, -, -, hrule⟩ :=
    installed_of_waiting { rules := [rule "a"] } "node-1" false true acts hstage hwakeup hwriters
  have hwritten : (c.live.wired.combine c.live.runtime).rules = [rule "c"] := by decide +kernel
  have hrules : s.rules = [rule "c"] := hagrees.rules.trans hwritten
  refine ⟨hstage, hwakeup, hwriters, hclean, ?_, fun name hne => ?_⟩
  · have hlast : lastValid? [rule "c"] "c" = some (rule "c") := by decide +kernel
    rw [hrule, hrules, hlast]
    rfl
  · rw [hrule, hrules, if_neg (by simpa [rule] using hne)]

end Pickup

end ScrapeDiscovery.Manager

import ScrapeDiscovery.Proofs.Manager.Footing

/-!
# Settings that change while a manager starts and runs

Settings are written under a lock, and the wakeup is left only after the lock was
given back. The start of a manager looks at the settings, applies them and starts
its tasks. The task for settings waits until there is a wakeup to take or the
interval has passed; then it looks at the settings, and if they have changed it
applies them and takes in the remembered resources once more. A `Pickup` is a
manager together with how far its start or its task has come and how many writes
have not left their wakeup yet. Whatever others do may come between any two of
these steps: further writes, late wakeups, events, changes of leadership. A wakeup
that is left while the task waits is taken with its next step.

Results:
* `live_announce`: a write and its wakeup, with nothing in between.
* `run_start`, `exists_run_eq_runResync`: a start and a wakeup, with nothing in between.
-/

namespace ScrapeDiscovery.Manager

/-! ## A manager and its task for settings -/

/-- How far the start of a manager, or its task for settings, has come. -/
inductive PickupStage where
  /-- There is no task. -/
  | absent
  /-- The start has looked at the settings. -/
  | starting (s : Settings)
  /-- The start has applied them. -/
  | begun
  /-- The task waits for a wakeup, or for the interval to pass. -/
  | waiting
  /-- The task is about to look at the settings. -/
  | woken
  /-- The task has found changed settings. -/
  | adopting (s : Settings)
  /-- The task has applied them. -/
  | adopted
  /-- The task takes resources in once more. -/
  | replaying (rs : List Resource)
  deriving DecidableEq

/-- A manager with its start and its task for settings under way. -/
structure Pickup where
  manager : Manager
  stage : PickupStage := .absent
  /-- How many writes have not left their wakeup yet. -/
  unannounced : Nat := 0
  /-- The settings that were answered when somebody asked what is in effect, the latest last. -/
  answers : List Settings := []
  deriving DecidableEq

/-- Something that happens to such a manager. -/
inductive PickupAct where
  /-- The settings of the document are written. -/
  | setWired (wired : Settings)
  /-- An added or changed object is written. -/
  | update (s : RuleSource)
  /-- A source is removed. -/
  | delete (name : String)
  /-- One of those who have written leaves the wakeup. -/
  | announce
  /-- The interval has passed. -/
  | tick
  | start
  | stop
  /-- The start, or the task, takes its next step. -/
  | proceed
  /-- Something that has nothing to do with settings. -/
  | aside (mv : Move)

/-- The first part of a start. -/
def switchOn (m : Manager) : Manager :=
  { m with running := true, agent := { m.agent with enabled := true } }

/-- The last part of a start (`DiscoveryManager::start`): the tasks. -/
def launch (m : Manager) : Manager :=
  let m := m.watchPods.startResync
  if !m.scrapeCluster then m
  else if m.agent.leadership.daemon then m.subscribe
  else m.resume

namespace Pickup

/-- The settings in effect. -/
def live (c : Pickup) : LiveSettings := c.manager.agent.live

/-- Changes the settings in effect. -/
def onLive (c : Pickup) (f : LiveSettings → LiveSettings) : Pickup :=
  { c with manager := { c.manager with agent := { c.manager.agent with live := f c.live } } }

/-- Writes settings; the wakeup has to be left later. -/
def write (c : Pickup) (f : LiveSettings → LiveSettings) : Pickup :=
  { c.onLive f with unannounced := c.unannounced + 1 }

/-- Removes a source, if there is one of that name. -/
def remove (c : Pickup) (name : String) : Pickup :=
  if c.live.runtime.contains name then c.write (·.eraseSource name) else c

/-- Asks what is in effect. How it goes on may depend on the answer, and on whether that has
changed. -/
def look (c : Pickup) (next : Settings → Bool → PickupStage) : Pickup :=
  let ((s, changed), m) := c.manager.lookAtSettings
  { c with manager := m, stage := next s changed, answers := c.answers ++ [s] }

/-- The next step of the start or of the task (`DiscoveryManager::spawn_resync`). -/
def proceed (c : Pickup) : Pickup :=
  match c.stage with
  | .absent => c
  | .starting s => { c with manager := c.manager.applySettings s, stage := .begun }
  | .begun =>
    { c with
      manager := c.manager.launch
      stage := if c.manager.interval.isZero then .absent else .waiting }
  | .waiting =>
    if c.live.wakeup then { c.onLive (·.takeWakeup.2) with stage := .woken } else c
  | .woken => c.look fun s changed => if changed then .adopting s else .waiting
  | .adopting s => { c with manager := c.manager.countReload.applySettings s, stage := .adopted }
  | .adopted => { c with stage := .replaying c.manager.snapshot }
  | .replaying [] => { c with stage := .waiting }
  | .replaying (r :: rs) => { c with manager := c.manager.replay r, stage := .replaying rs }

/-- The state after something has happened. What cannot happen now changes nothing: a manager that
    runs is not started again, and a stop waits until the task is done. -/
def act (c : Pickup) : PickupAct → Pickup
  | .setWired wired => c.write (·.writeWired wired)
  | .update s => if s.isSource then c.write (·.writeSource s.name s.rules) else c.remove s.name
  | .delete name => c.remove name
  | .announce =>
    if c.unannounced = 0 then c
    else { c.onLive (·.wake) with unannounced := c.unannounced - 1 }
  | .tick => if c.stage = .waiting then { c with stage := .woken } else c
  | .start =>
    if c.stage = .absent ∧ c.manager.running = false then
      { c with manager := c.manager.switchOn }.look fun s _ => .starting s
    else c
  | .stop =>
    if c.stage = .absent ∨ c.stage = .waiting then
      { c with manager := c.manager.stop, stage := .absent }
    else c
  | .proceed => c.proceed
  | .aside mv => if mv.isAside then { c with manager := c.manager.move mv } else c

/-- The state after many things, one after the other. -/
def run (c : Pickup) (acts : List PickupAct) : Pickup := acts.foldl act c

theorem run_append (c : Pickup) (xs ys : List PickupAct) :
    c.run (xs ++ ys) = (c.run xs).run ys := List.foldl_append

/-! ## Nothing in between -/

/-- Writes that leave their wakeup at once. -/
theorem live_announce {c : Pickup} (hc : c.unannounced = 0) :
    (∀ wired, (c.run [.setWired wired, .announce]).live = c.live.setWired wired) ∧
    (∀ s, (c.run [.update s, .announce]).live = c.live.update s) ∧
    ∀ name, (c.run [.delete name, .announce]).live = c.live.delete name := by
  have hidle : c.act .announce = c := if_pos hc
  have hremove : ∀ name, ((c.remove name).act .announce).live = c.live.delete name := by
    intro name
    unfold Pickup.remove LiveSettings.delete
    split
    · rfl
    · rw [hidle]
  refine ⟨fun _ => rfl, fun s => ?_, hremove⟩
  show ((c.act (.update s)).act .announce).live = c.live.update s
  unfold LiveSettings.update
  simp only [Pickup.act]
  split
  · rfl
  · exact hremove s.name

/-- A start that nothing comes between. -/
theorem run_start {c : Pickup} (hstage : c.stage = .absent) (hrun : c.manager.running = false) :
    (c.run [.start, .proceed, .proceed]).manager = c.manager.start := by
  have hstart : c.act .start = _ := if_pos ⟨hstage, hrun⟩
  show ((c.act .start).proceed.proceed).manager = c.manager.start
  rw [hstart, Manager.start, hrun]
  rfl

theorem run_replays {c : Pickup} {rs : List Resource} (hstage : c.stage = .replaying rs) :
    c.run (List.replicate (rs.length + 1) .proceed) =
      { c with manager := rs.foldl replay c.manager, stage := .waiting } := by
  induction rs generalizing c with
  | nil =>
    show c.proceed = _
    rw [proceed, hstage]
    rfl
  | cons r rs ih =>
    have hstep : c.proceed = { c with manager := c.manager.replay r, stage := .replaying rs } := by
      rw [proceed, hstage]
    rw [List.length_cons, List.replicate_succ]
    show c.proceed.run (List.replicate (rs.length + 1) .proceed) = _
    rw [hstep]
    exact ih rfl

/-- What a task does about a wakeup, if nothing comes between. -/
theorem exists_run_eq_runResync {c : Pickup} (hstage : c.stage = .waiting) :
    ∃ n, (c.run (List.replicate n .proceed)).manager = c.manager.runResync ∧
      (c.run (List.replicate n .proceed)).stage = .waiting := by
  by_cases hwakeup : c.live.wakeup = true
  · let c₁ : Pickup := { c.onLive (·.takeWakeup.2) with stage := .woken }
    let c₂ : Pickup := c₁.proceed
    have htake : c.proceed = c₁ := by
      rw [proceed, hstage]
      exact if_pos hwakeup
    have hwoken : c.manager.runResync = c₁.manager.resync.2 := if_pos hwakeup
    rw [hwoken]
    by_cases hchanged : c₁.manager.lookAtSettings.1.2 = true
    · let c₄ : Pickup := c₂.proceed.proceed
      have hstage₂ : c₂.stage = .adopting c₁.manager.lookAtSettings.1.1 := if_pos hchanged
      have hstage₃ : c₂.proceed =
          { c₂ with
            manager := c₂.manager.countReload.applySettings c₁.manager.lookAtSettings.1.1
            stage := .adopted } := by
        rw [proceed, hstage₂]
      have hstage₄ : c₄.stage = .replaying c₄.manager.snapshot := by
        show c₂.proceed.proceed.stage = .replaying c₂.proceed.proceed.manager.snapshot
        rw [hstage₃]
        rfl
      have hmanager₄ : c₄.manager =
          c₁.manager.lookAtSettings.2.countReload.applySettings c₁.manager.lookAtSettings.1.1 := by
        show c₂.proceed.proceed.manager = _
        rw [hstage₃]
        rfl
      have hrun : c.run (List.replicate (4 + (c₄.manager.snapshot.length + 1)) .proceed) =
          { c₄ with
            manager := c₄.manager.snapshot.foldl replay c₄.manager
            stage := .waiting } := by
        rw [List.replicate_add, run_append, ← run_replays hstage₄]
        show c.proceed.proceed.proceed.proceed.run _ = _
        rw [htake]
      refine ⟨_, (congrArg (·.manager) hrun).trans ?_, congrArg (·.stage) hrun⟩
      simp only [resync, hchanged, if_true, hmanager₄]
    · refine ⟨2, ?_, ?_⟩
      · show c.proceed.proceed.manager = _
        rw [htake]
        simp only [resync, hchanged]
        rfl
      · show c.proceed.proceed.stage = _
        rw [htake]
        exact if_neg hchanged
  · refine ⟨0, ?_, hstage⟩
    have hidle : c.manager.agent.live.takeWakeup = (false, c.manager.agent.live) := by
      have hnone : c.manager.agent.live.wakeup = false := Bool.eq_false_iff.mpr hwakeup
      rw [LiveSettings.takeWakeup, hnone, ← hnone]
    rw [Manager.runResync, hidle]
    rfl

end Pickup

end ScrapeDiscovery.Manager

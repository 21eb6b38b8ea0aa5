import ScrapeDiscovery.Proofs.Manager.Overlooked

/-!
# Stopping the watch of services, one step at a time

The call that pauses takes the watch of services away, collects the remembered
resources that belong to the cluster, forgets them one by one and then gives up
their targets. The task of the watch is told to stop but not waited for: what is in
its queue it takes in while the call goes on, or after it has returned. Its producer
may put further events into the queue until it notices the stop; what it has not put
there by then is lost. A `Pausing` is a manager with what is left to do of the call
and of every stopped watch, as `Chore`s that nothing comes between. Until services are
watched again, everybody else goes on as well, in moves of their own.

Results:
* `apply_eq`, `Sound.pause_eq`: an event, and the call, as chores.
* `exists_run_eq_pause`, `exists_run_eq_runRetired`: the call, and then the queues, with nothing
  in between.
* `spares_move`: moves of others make nothing of the cluster remembered.
-/

namespace ScrapeDiscovery.Manager

/-! ## Chores -/

/-- A step that nothing comes between. -/
inductive Chore where
  /-- Remembers a resource. -/
  | insert (r : Resource)
  /-- Takes a resource in. -/
  | discover (r : Resource)
  /-- Forgets a resource. -/
  | erase (r : Resource)
  /-- Gives up the targets of a resource. -/
  | giveUp (r : Resource)
  /-- Compares what is remembered of a kind with a complete list. -/
  | relist (kind : ResourceKind) (rs : List Resource)
  /-- Collects what is remembered of the cluster. -/
  | collect
  deriving DecidableEq

/-- The chores of taking in an event (`apply`). -/
def chores (kind : ResourceKind) : ResourceEvent → List Chore
  | .applied r => [.insert r, .discover r]
  | .deleted r => [.erase r, .giveUp r]
  | .restarted rs => [.relist kind rs]

variable {m m' m'' : Manager}

/-- Does a chore. -/
def doChore (m : Manager) : Chore → Manager
  | .insert r => { m with cache := m.cache.insert r.targetName r }
  | .discover r => m.replay r
  | .erase r => { m with cache := m.cache.erase r.targetName }
  | .giveUp r => m.onDiscoverer (·.deleteResource r)
  | .relist _ _ => m
  | .collect => m

/-- The chores that follow from a chore. -/
def followUps (m : Manager) : Chore → List Chore
  | .relist kind rs =>
    (m.gone kind rs).flatMap (fun r => [.erase r, .giveUp r]) ++
      rs.flatMap fun r => [.insert r, .discover r]
  | .collect =>
    m.clusterScoped.map .erase ++ (m.clusterScoped ++ [Resource.apiServer]).map .giveUp
  | _ => []

/-- Does a chore and all that follows from it. -/
def finishChore (m : Manager) (c : Chore) : Manager := (m.followUps c).foldl doChore (m.doChore c)

/-- Nothing further follows from what follows. -/
theorem followUps_of_mem {c c' : Chore} (hc : c' ∈ m.followUps c) (m' : Manager) :
    m'.followUps c' = [] := by
  cases c with
  | relist kind rs =>
    simp only [followUps, List.mem_append, List.mem_flatMap, List.mem_cons, List.not_mem_nil,
      or_false] at hc
    rcases hc with ⟨r, -, rfl | rfl⟩ | ⟨r, -, rfl | rfl⟩ <;> rfl
  | collect =>
    simp only [followUps, List.mem_append, List.mem_map] at hc
    rcases hc with ⟨r, -, rfl⟩ | ⟨r, -, rfl⟩ <;> rfl
  | insert r => cases hc
  | discover r => cases hc
  | erase r => cases hc
  | giveUp r => cases hc

/-- Taking in an event is doing its chores. -/
theorem apply_eq (m : Manager) (kind : ResourceKind) (e : ResourceEvent) :
    m.apply kind e = (chores kind e).foldl finishChore m := by
  cases e with
  | applied r => rfl
  | deleted r => rfl
  | restarted rs =>
    show rs.foldl discover ((m.gone kind rs).foldl forget m) =
      (m.followUps (.relist kind rs)).foldl doChore m
    rw [followUps, List.foldl_append, List.foldl_flatMap, List.foldl_flatMap]
    rfl

/-- The chores of taking in the queue of a watch. -/
def queue (w : Watch) : List Chore := w.pending.flatMap (chores w.kind)

theorem drain_eq (m : Manager) (w : Watch) : m.drain w = (queue w).foldl finishChore m := by
  rw [queue, List.foldl_flatMap]
  exact congrArg (fun f => w.pending.foldl f m) (funext₂ fun m e => m.apply_eq w.kind e)

/-! ## Collecting what belongs to the cluster -/

theorem foldl_erase (m : Manager) (rs : List Resource) :
    (rs.map Chore.erase).foldl doChore m =
      { m with cache := rs.foldl (fun c r => c.erase r.targetName) m.cache } := by
  induction rs generalizing m with
  | nil => rfl
  | cons r rs ih => exact ih (m.doChore (.erase r))

theorem foldl_giveUp (m : Manager) (rs : List Resource) :
    (rs.map Chore.giveUp).foldl doChore m =
      m.onDiscoverer fun d => rs.foldl Discoverer.deleteResource d := by
  induction rs generalizing m with
  | nil => rfl
  | cons r rs ih => exact ih (m.doChore (.giveUp r))

theorem get?_foldl_erase (c : KeyMap Resource) (rs : List Resource) (k : String) :
    (rs.foldl (fun c r => c.erase r.targetName) c).get? k =
      if k ∈ rs.map Resource.targetName then none else c.get? k := by
  induction rs generalizing c with
  | nil => rfl
  | cons r rs ih =>
    rw [List.foldl_cons, ih, KeyMap.get?_erase, List.map_cons]
    by_cases hk : k = r.targetName
    · simp [hk]
    · simp [hk]

theorem mem_clusterScoped {r : Resource} :
    r ∈ m.clusterScoped ↔ r ∈ m.cache.values ∧ r.kind.isClusterScoped = true := by
  rw [clusterScoped, List.mem_filter]

theorem Sound.get?_of_mem (hs : m.Sound) {r : Resource} (hr : r ∈ m.cache.values) :
    m.cache.get? r.targetName = some r := by
  obtain ⟨k, hk⟩ := KeyMap.mem_values_iff.mp hr
  rwa [hs.keyed k r hk]

/-- Forgetting what belongs to the cluster one by one forgets all of it and nothing else. -/
theorem Sound.cache_collect (hs : m.Sound) :
    m.clusterScoped.foldl (fun c r => c.erase r.targetName) m.cache =
      m.cache.filter fun _ r => !r.kind.isClusterScoped := by
  refine KeyMap.ext_get? fun k => ?_
  rw [get?_foldl_erase, KeyMap.get?_filter]
  cases hk : m.cache.get? k with
  | none => exact ite_self _
  | some r =>
    have hmem : r ∈ m.cache.values := KeyMap.mem_values_iff.mpr ⟨k, hk⟩
    have hlisted : k ∈ m.clusterScoped.map Resource.targetName ↔
        r.kind.isClusterScoped = true := by
      rw [List.mem_map]
      constructor
      · rintro ⟨r', hr', rfl⟩
        obtain ⟨hr', hscoped⟩ := mem_clusterScoped.mp hr'
        obtain rfl := Option.some.inj ((hs.get?_of_mem hr').symm.trans hk)
        exact hscoped
      · exact fun hscoped => ⟨r, mem_clusterScoped.mpr ⟨hmem, hscoped⟩, hs.keyed k r hk⟩
    rw [if_congr hlisted rfl rfl, Option.filter_some]
    cases r.kind.isClusterScoped <;> rfl

theorem Sound.purge_eq (hs : m.Sound) : m.purge = m.finishChore .collect := by
  rw [finishChore, followUps, List.foldl_append, doChore, foldl_erase, foldl_giveUp,
    hs.cache_collect, purge]
  refine congrArg (onDiscoverer _) (funext fun d => ?_)
  rw [List.foldl_append]
  rfl

/-! ## A manager that pauses -/

/-- What a watch that was stopped leaves behind (`DiscoveryManager::spawn_watch`). -/
structure Leftover where
  kind : ResourceKind
  /-- Whether its producer has not noticed the stop yet. -/
  producing : Bool
  /-- Events that are still with the producer. -/
  reported : List ResourceEvent
  /-- What is left to do of the queue. -/
  queue : List Chore
  deriving DecidableEq

namespace Leftover

/-- What a watch leaves behind when it is stopped. -/
def ofWatch (w : Watch) : Leftover where
  kind := w.kind
  producing := true
  reported := w.reported
  queue := Manager.queue w

/-- One more event is reported to the producer. -/
def report (l : Leftover) (e : ResourceEvent) : Leftover :=
  if l.producing then { l with reported := l.reported ++ [e] } else l

/-- The producer puts its next event into the queue, here also if there is no room left. -/
def enqueue (l : Leftover) : Leftover :=
  match l.reported with
  | [] => l
  | e :: es => { l with reported := es, queue := l.queue ++ chores l.kind e }

/-- The producer notices the stop. -/
def notice (l : Leftover) : Leftover := { l with producing := false, reported := [] }

/-- Nothing is left. -/
def spent (l : Leftover) : Leftover := { l.notice with queue := [] }

end Leftover

/-- A manager that pauses, with what is left to do. -/
structure Pausing where
  manager : Manager
  /-- What is left of the call. -/
  call : List Chore
  /-- What is left of each watch that was stopped. -/
  leftovers : List Leftover
  deriving DecidableEq

/-- What happens next. -/
inductive PausingAct where
  /-- The call does its next chore. -/
  | proceed
  /-- The task of a watch that was stopped does its next chore. -/
  | takeIn (n : Nat)
  /-- An event is reported to the producer of a watch that was stopped. -/
  | report (n : Nat) (e : ResourceEvent)
  /-- The producer of a watch that was stopped puts its next event into the queue. -/
  | enqueue (n : Nat)
  /-- The producer of a watch that was stopped notices that. -/
  | notice (n : Nat)
  /-- Something else happens. -/
  | aside (mv : Move)

/-- Whether a move may come in between. The watch of pods reports pods. Tasks that take in what a
    watch has reported do so one event at a time. -/
def Move.isBeside : Move → Bool
  | .apply _ e => e.resources.all (·.kind = .pod)
  | .takeNext _ | .task .pods | .task .retired | .settle => false
  | _ => true

/-- Takes the watch of services away and tells it to stop. -/
def stopServices (m : Manager) (w : Watch) : Manager := { m with services := none }.retire w

/-- The call has told the watch of services to stop, and nothing else has been done yet
    (`DiscoveryManager::pause`). Where services are not watched there is nothing to do. -/
def beginPause (m : Manager) : Pausing :=
  match m.services with
  | none => { manager := m, call := [], leftovers := [] }
  | some w =>
    { manager := { m.stopServices w with retired := [] }
      call := [.collect]
      leftovers := (m.stopServices w).retired.map .ofWatch }

theorem beginPause_eq {w : Watch} (hw : m.services = some w) :
    m.beginPause =
      { manager := { m.stopServices w with retired := [] }
        call := [.collect]
        leftovers := (m.stopServices w).retired.map .ofWatch } := by
  rw [beginPause, hw]

theorem pause_eq {w : Watch} (hw : m.services = some w) : m.pause = (m.stopServices w).purge := by
  rw [pause, hw]
  rfl

theorem Sound.beginPause (hs : m.Sound) : m.beginPause.manager.Sound := by
  cases hw : m.services with
  | none =>
    rw [Manager.beginPause, hw]
    exact hs
  | some w =>
    have hnone : Tidies m { m with services := none } := hs.tidies_of_eq rfl rfl
    have hretired := (hnone.sound.retire_tidies w).sound
    have hemptied : Tidies _ { m.stopServices w with retired := [] } :=
      hretired.tidies_of_eq rfl rfl
    rw [beginPause_eq hw]
    exact hemptied.sound

namespace Pausing

/-- Changes what is left of a watch. -/
def onLeftover (s : Pausing) (n : Nat) (f : Leftover → Leftover) : Pausing :=
  { s with leftovers := s.leftovers.modify n f }

/-- The state after something has happened. What begins to watch services again is left out. -/
def act (s : Pausing) : PausingAct → Pausing
  | .proceed =>
    match s.call with
    | [] => s
    | c :: cs => { s with manager := s.manager.doChore c, call := s.manager.followUps c ++ cs }
  | .takeIn n =>
    match s.leftovers[n]? with
    | some { kind, producing, reported, queue := c :: cs } =>
      { s with
        manager := s.manager.doChore c
        leftovers :=
          s.leftovers.set n { kind, producing, reported, queue := s.manager.followUps c ++ cs } }
    | _ => s
  | .report n e => s.onLeftover n (·.report e)
  | .enqueue n => s.onLeftover n (·.enqueue)
  | .notice n => s.onLeftover n (·.notice)
  | .aside mv =>
    if mv.isBeside && (s.manager.move mv).services.isNone then
      { s with manager := s.manager.move mv }
    else s

/-- The state after many things, one after the other. -/
def run (s : Pausing) (acts : List PausingAct) : Pausing := acts.foldl act s

theorem run_append (s : Pausing) (xs ys : List PausingAct) :
    s.run (xs ++ ys) = (s.run xs).run ys := List.foldl_append

/-! ## Nothing in between -/

theorem run_proceed (m : Manager) (leftovers : List Leftover) (cs rest : List Chore)
    (hcs : ∀ c ∈ cs, ∀ m : Manager, m.followUps c = []) :
    run ⟨m, cs ++ rest, leftovers⟩ (List.replicate cs.length .proceed) =
      ⟨cs.foldl doChore m, rest, leftovers⟩ := by
  induction cs generalizing m with
  | nil => rfl
  | cons c cs ih =>
    have hfirst : act ⟨m, c :: cs ++ rest, leftovers⟩ .proceed =
        ⟨m.doChore c, cs ++ rest, leftovers⟩ := by
      simp only [act, List.cons_append, hcs c List.mem_cons_self m, List.nil_append]
    rw [List.length_cons, List.replicate_succ]
    refine (congrArg (run · _) hfirst).trans ?_
    exact ih (m.doChore c) fun c' hc' => hcs c' (List.mem_cons_of_mem _ hc')

/-- The call, with nothing in between. -/
theorem exists_run_eq_pause (hs : m.Sound) {w : Watch} (hw : m.services = some w) :
    ∃ n, m.beginPause.run (List.replicate n .proceed) =
      { m.beginPause with manager := { m.pause with retired := [] }, call := [] } := by
  let stopped : Manager := { m.stopServices w with retired := [] }
  let more := stopped.followUps .collect
  have hbegun := beginPause_eq hw
  have hfirst : m.beginPause.act .proceed = ⟨stopped, more ++ [], m.beginPause.leftovers⟩ := by
    rw [hbegun]
    rfl
  have hrun :=
    run_proceed stopped m.beginPause.leftovers more [] fun c hc m' => followUps_of_mem hc m'
  have hstopped : stopped.Sound := by
    have hs' := hs.beginPause
    rwa [hbegun] at hs'
  have hcollect : more.foldl doChore stopped = { m.pause with retired := [] } := by
    rw [pause_eq hw]
    exact hstopped.purge_eq.symm
  refine ⟨1 + more.length, ?_⟩
  rw [List.replicate_add, run_append]
  refine (congrArg (run · _) hfirst).trans (hrun.trans ?_)
  rw [hcollect]

theorem act_takeIn (m : Manager) (call : List Chore) (before after : List Leftover)
    (l : Leftover) (c : Chore) (cs : List Chore) :
    act ⟨m, call, before ++ { l with queue := c :: cs } :: after⟩ (.takeIn before.length) =
      ⟨m.doChore c, call, before ++ { l with queue := m.followUps c ++ cs } :: after⟩ := by
  simp [act]

theorem run_takeIn (m : Manager) (call : List Chore) (before after : List Leftover)
    (l : Leftover) (cs rest : List Chore) (hcs : ∀ c ∈ cs, ∀ m : Manager, m.followUps c = []) :
    run ⟨m, call, before ++ { l with queue := cs ++ rest } :: after⟩
        (List.replicate cs.length (.takeIn before.length)) =
      ⟨cs.foldl doChore m, call, before ++ { l with queue := rest } :: after⟩ := by
  induction cs generalizing m with
  | nil => rfl
  | cons c cs ih =>
    have hfirst := act_takeIn m call before after l c (cs ++ rest)
    rw [hcs c List.mem_cons_self m, List.nil_append] at hfirst
    rw [List.length_cons, List.replicate_succ]
    refine (congrArg (run · _) hfirst).trans ?_
    exact ih (m.doChore c) fun c' hc' => hcs c' (List.mem_cons_of_mem _ hc')

/-- One queue, with nothing in between. -/
theorem exists_run_queue (m : Manager) (call : List Chore) (before after : List Leftover)
    (l : Leftover) (queue : List Chore) :
    ∃ n, run ⟨m, call, before ++ { l with queue } :: after⟩
        (List.replicate n (.takeIn before.length)) =
      ⟨queue.foldl finishChore m, call, before ++ { l with queue := [] } :: after⟩ := by
  induction queue generalizing m with
  | nil => exact ⟨0, rfl⟩
  | cons c cs ih =>
    obtain ⟨n, hn⟩ := ih (m.finishChore c)
    let more := m.followUps c
    have hfirst := act_takeIn m call before after l c cs
    have hmore := run_takeIn (m.doChore c) call before after l more cs
      fun c' hc' m' => followUps_of_mem hc' m'
    refine ⟨1 + (more.length + n), ?_⟩
    rw [List.replicate_add, run_append, List.replicate_add, run_append]
    refine (congrArg (fun s => run (run s _) _) hfirst).trans ?_
    rw [hmore]
    exact hn

/-- One after the other, the producers notice the stop and the tasks take in their queues. -/
theorem exists_run_leftovers (m : Manager) (call : List Chore) (before leftovers : List Leftover) :
    ∃ acts, run ⟨m, call, before ++ leftovers⟩ acts =
      ⟨leftovers.foldl (fun m l => l.queue.foldl finishChore m) m, call,
        before ++ leftovers.map Leftover.spent⟩ := by
  induction leftovers generalizing m before with
  | nil => exact ⟨[], by simp [run]⟩
  | cons l ls ih =>
    have hnotice : act ⟨m, call, before ++ l :: ls⟩ (.notice before.length) =
        ⟨m, call, before ++ { l.notice with queue := l.queue } :: ls⟩ := by
      simp [act, onLeftover, Leftover.notice, List.modify_eq_take_cons_drop]
    obtain ⟨n, hn⟩ := exists_run_queue m call before ls l.notice l.queue
    obtain ⟨acts, hacts⟩ := ih (l.queue.foldl finishChore m) (before ++ [l.spent])
    refine ⟨.notice before.length :: (List.replicate n (.takeIn before.length) ++ acts), ?_⟩
    refine (congrArg (run · _) hnotice).trans ?_
    rw [run_append, hn]
    simpa [Leftover.spent] using hacts

/-- The call and then the queues, with nothing in between. What the producer of the stopped watch
    was told of and has not put into the queue is lost. -/
theorem exists_run_eq_runRetired (hs : m.Sound) {w : Watch} (hw : m.services = some w) :
    ∃ acts, (m.beginPause.run acts).manager = m.pause.runRetired ∧
      (m.beginPause.run acts).call = [] ∧
        ∀ l ∈ (m.beginPause.run acts).leftovers, l.reported = [] ∧ l.queue = [] := by
  obtain ⟨n, hn⟩ := exists_run_eq_pause hs hw
  obtain ⟨acts, hacts⟩ :=
    exists_run_leftovers { m.pause with retired := [] } [] [] m.beginPause.leftovers
  have hlast : run { m.beginPause with manager := { m.pause with retired := [] }, call := [] }
      acts = _ := hacts
  have hleftovers : m.beginPause.leftovers = m.pause.retired.map .ofWatch := by
    rw [beginPause_eq hw, pause_eq hw]
    rfl
  refine ⟨List.replicate n .proceed ++ acts, ?_⟩
  rw [run_append, hn, hlast]
  refine ⟨?_, rfl, fun l hl => ?_⟩
  · rw [hleftovers, List.foldl_map, runRetired]
    exact congrArg (fun f => m.pause.retired.foldl f { m.pause with retired := [] })
      (funext₂ fun m w => (m.drain_eq w).symm)
  · obtain ⟨l', -, rfl⟩ := List.mem_map.mp hl
    exact ⟨rfl, rfl⟩

end Pausing

/-! ## What others leave alone -/

theorem cache_wake (m : Manager) (t : ManagerTask) : (m.wake t).cache = m.cache := by
  unfold wake
  split <;> rfl

theorem cache_putWatch (m : Manager) (kind : ResourceKind) (w : Watch) :
    (m.putWatch kind w).cache = m.cache := by
  cases kind <;> rfl

theorem cache_changeWatch (m : Manager) (kind : ResourceKind) (f : Watch → Option Watch) :
    (m.changeWatch kind f).2.cache = m.cache := by
  unfold changeWatch
  split
  · rfl
  · next w _ => exact (cache_wake _ _).trans (cache_putWatch m kind w)

theorem cache_enqueue (m : Manager) (kind : ResourceKind) : (m.enqueue kind).cache = m.cache := by
  unfold enqueue
  split
  · rfl
  · exact cache_putWatch m kind _

theorem cache_changeSettings (m : Manager) (f : LiveSettings → LiveSettings) :
    (m.changeSettings f).cache = m.cache := by
  simp only [changeSettings]
  split
  · exact cache_wake _ .resync
  · rfl

theorem cache_adopt (m : Manager) : m.adopt.cache = m.cache := by
  simp only [adopt]
  split <;> rfl

theorem cache_runResync (m : Manager) : m.runResync.cache = m.cache := by
  simp only [runResync]
  split
  · exact resync_cache _
  · rfl

theorem cache_resume (m : Manager) : m.resume.cache = m.cache := by
  unfold resume
  split
  · rfl
  · exact cache_wake _ .services

theorem pause_of_services_eq_none (hnone : m.services = none) : m.pause = m := by
  rw [pause, hnone]

theorem cache_runLeadership (hnone : m.services = none) : m.runLeadership.cache = m.cache := by
  have hfollow : ∀ f, ({ m with follower := f } : Manager).follow.cache = m.cache := by
    intro f
    unfold follow
    split
    · exact cache_resume _
    · rw [pause_of_services_eq_none (m := { m with follower := f }) hnone]
  unfold runLeadership
  split
  · rfl
  · dsimp only
    split_ifs
    · exact hfollow _
    · rfl
    · exact cache_resume _
    · rfl

theorem cache_start (m : Manager) : m.start.cache = m.cache := by
  cases hrun : m.running with
  | true =>
    rw [start, hrun]
    rfl
  | false =>
    have hbegun : m.begun.cache = m.cache := by
      unfold begun startResync watchPods
      dsimp only
      split
      · exact cache_wake _ .pods
      · exact (cache_wake _ .resync).trans (cache_wake _ .pods)
    rw [start_of_not_running hrun]
    split_ifs
    · exact hbegun
    · exact (cache_wake _ .leadership).trans hbegun
    · exact (cache_resume _).trans hbegun

/-- Nothing is remembered of the cluster that was not remembered before. -/
def Spares (m m' : Manager) : Prop :=
  ∀ k r, m'.cache.get? k = some r → r.kind.isClusterScoped = true → m.cache.get? k = some r

theorem spares_of_cache (hcache : m'.cache = m.cache) : Spares m m' :=
  fun _ _ hk _ => hcache ▸ hk

theorem Spares.trans (h : Spares m m') (h' : Spares m' m'') : Spares m m'' :=
  fun k r hk hscoped => h k r (h' k r hk hscoped) hscoped

theorem spares_foldl {f : Manager → Resource → Manager} {rs : List Resource}
    (hf : ∀ m, ∀ r ∈ rs, Spares m (f m r)) (m : Manager) : Spares m (rs.foldl f m) :=
  rs.foldlRecOn f (spares_of_cache rfl) fun m' h r hr => h.trans (hf m' r hr)

theorem spares_discover {r : Resource} (hpod : r.kind = .pod) (m : Manager) :
    Spares m (m.discover r) := by
  intro k r' hk hscoped
  rcases KeyMap.get?_insert_eq_some hk with ⟨-, rfl⟩ | ⟨-, hk⟩
  · exact absurd hpod (ResourceKind.isClusterScoped_iff.mp hscoped)
  · exact hk

theorem spares_forget (m : Manager) (r : Resource) : Spares m (m.forget r) :=
  fun _ _ hk _ => (KeyMap.get?_erase_eq_some hk).2

theorem spares_apply {kind : ResourceKind} {e : ResourceEvent}
    (he : ∀ r ∈ e.resources, r.kind = .pod) (m : Manager) : Spares m (m.apply kind e) := by
  cases e with
  | applied r => exact spares_discover (he r (List.mem_singleton_self r)) m
  | deleted r => exact spares_forget m r
  | restarted rs =>
    exact (spares_foldl (fun m r _ => spares_forget m r) m).trans
      (spares_foldl (fun m r hr => spares_discover (he r hr) m) _)

theorem spares_stop (m : Manager) : Spares m m.stop := by
  cases hrun : m.running with
  | false =>
    rw [stop_of_not_running hrun]
    exact spares_of_cache rfl
  | true =>
    have hempty : m.stop.cache = ∅ := by
      rw [stop, hrun]
      rfl
    intro k r hk
    rw [hempty] at hk
    cases hk

/-- While services are not watched, nobody but a task that takes in what services reported makes
    anything of the cluster remembered. -/
theorem spares_move (hnone : m.services = none) {mv : Move} (hmv : mv.isBeside = true) :
    Spares m (m.move mv) := by
  cases mv with
  | start => exact spares_of_cache (cache_start m)
  | stop => exact spares_stop m
  | resume => exact spares_of_cache (cache_resume m)
  | pause => exact spares_of_cache (congrArg (·.cache) (pause_of_services_eq_none hnone))
  | report kind e => exact spares_of_cache (cache_changeWatch m kind _)
  | endWatch kind => exact spares_of_cache (cache_changeWatch m kind _)
  | enqueue kind => exact spares_of_cache (cache_enqueue m kind)
  | takeNext kind => cases hmv
  | apply kind e =>
    simp only [Move.isBeside, List.all_eq_true, decide_eq_true_eq] at hmv
    exact spares_apply hmv m
  | task t =>
    refine spares_of_cache ?_
    cases t with
    | pods => cases hmv
    | retired => cases hmv
    | services =>
      simp only [Manager.move, runTask, runWatch, watch?, hnone]
    | resync =>
      simp only [Manager.move, runTask]
      split
      · exact cache_runResync m
      · rfl
    | leadership => exact cache_runLeadership hnone
  | settle => cases hmv
  | changeSettings f => exact spares_of_cache (cache_changeSettings m f)
  | changeLeadership f => exact spares_of_cache (cache_changeLeadership m f)
  | resync => exact spares_of_cache (resync_cache m)
  | adopt => exact spares_of_cache (cache_adopt m)
  | replay r => exact spares_of_cache rfl

end ScrapeDiscovery.Manager

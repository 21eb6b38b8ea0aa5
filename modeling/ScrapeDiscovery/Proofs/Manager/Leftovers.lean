import ScrapeDiscovery.Proofs.Manager.Pausing

/-!
# What a stopped watch leaves behind

A call that pauses forgets what is remembered of the cluster at the moment when it
collects. Whatever the task of the stopped watch takes in before that moment is
forgotten with the rest, and what it forgets or replaces in between makes no
difference. But a resource that it takes in later is remembered, and nothing forgets
it until its watch reports again, which is not before services are watched anew.
A task has something to take in later when its turn was too short for all that was
reported.

Results:
* `Begun.act`: what the call keeps, whatever comes in between.
* `Begun.erase_or_reportedLate`: once it has collected, what is remembered of the cluster is still
  to be forgotten or was taken in later.
* `remembered_iff_reportedLate`: exactly what is remembered of the cluster after the call has
  returned, in every order of its chores and those of the queues.
-/

namespace ScrapeDiscovery.Manager

variable {m : Manager}

theorem Sound.doChore (hs : m.Sound) (c : Chore) : (m.doChore c).Sound := by
  cases c with
  | insert r =>
    refine ⟨hs.discoverer, fun k r' hk => ?_⟩
    rcases KeyMap.get?_insert_eq_some hk with ⟨rfl, rfl⟩ | ⟨-, hk⟩
    · rfl
    · exact hs.keyed k r' hk
  | discover r => exact hs.replay r
  | erase r => exact ⟨hs.discoverer, fun k r' hk => hs.keyed k r' (KeyMap.get?_erase_eq_some hk).2⟩
  | giveUp r => exact ⟨hs.discoverer.deleteResource r, hs.keyed⟩
  | relist kind rs => exact hs
  | collect => exact hs

theorem services_doChore (m : Manager) (c : Chore) : (m.doChore c).services = m.services := by
  cases c <;> rfl

/-- A chore makes a resource remembered only by remembering it. -/
theorem mem_of_doChore {c : Chore} {r : Resource} (hr : r ∈ (m.doChore c).cache.values) :
    r ∈ m.cache.values ∨ c = .insert r := by
  cases c with
  | insert r' =>
    obtain ⟨k, hk⟩ := KeyMap.mem_values_iff.mp hr
    rcases KeyMap.get?_insert_eq_some hk with ⟨-, rfl⟩ | ⟨-, hk⟩
    · exact Or.inr rfl
    · exact Or.inl (KeyMap.mem_values_iff.mpr ⟨k, hk⟩)
  | erase r' =>
    obtain ⟨k, hk⟩ := KeyMap.mem_values_iff.mp hr
    exact Or.inl (KeyMap.mem_values_iff.mpr ⟨k, (KeyMap.get?_erase_eq_some hk).2⟩)
  | discover r' => exact Or.inl hr
  | giveUp r' => exact Or.inl hr
  | relist kind rs => exact Or.inl hr
  | collect => exact Or.inl hr

theorem Sound.targetName_ne_of_mem_erase (hs : m.Sound) {r r' : Resource}
    (hr : r ∈ (m.doChore (.erase r')).cache.values) : r'.targetName ≠ r.targetName := by
  obtain ⟨k, hk⟩ := KeyMap.mem_values_iff.mp hr
  obtain ⟨hne, hk⟩ := KeyMap.get?_erase_eq_some hk
  rw [hs.keyed k r hk]
  exact Ne.symm hne

/-- Whether a chore is one of a call that pauses. -/
def Chore.Clears : Chore → Prop
  | .collect | .erase _ | .giveUp _ => True
  | _ => False

theorem clears_of_mem_followUps {c c' : Chore} (hc : c.Clears) (hc' : c' ∈ m.followUps c) :
    c'.Clears := by
  cases c with
  | collect =>
    simp only [followUps, List.mem_append, List.mem_map] at hc'
    rcases hc' with ⟨r, -, rfl⟩ | ⟨r, -, rfl⟩ <;> trivial
  | erase r => cases hc'
  | giveUp r => cases hc'
  | insert r => exact hc.elim
  | discover r => exact hc.elim
  | relist kind rs => exact hc.elim

namespace Pausing

variable {s : Pausing}

/-! ## What every act keeps -/

/-- Services are not watched, and the call clears only. -/
structure Begun (s : Pausing) : Prop where
  sound : s.manager.Sound
  services : s.manager.services = none
  clears : ∀ c ∈ s.call, c.Clears

theorem begun_beginPause (hs : m.Sound) : m.beginPause.Begun := by
  refine ⟨hs.beginPause, ?_, fun c hc => ?_⟩
  · cases hw : m.services with
    | none =>
      rw [beginPause, hw]
      exact hw
    | some w =>
      rw [beginPause_eq hw]
      show (Manager.retire { m with services := none } w).services = none
      unfold Manager.retire wake
      split <;> rfl
  · cases hw : m.services with
    | none =>
      rw [beginPause, hw] at hc
      cases hc
    | some w =>
      rw [beginPause_eq hw] at hc
      rw [List.mem_singleton.mp hc]
      trivial

/-- What an act comes to. -/
theorem act_cases (s : Pausing) (a : PausingAct) :
    ((s.act a).manager = s.manager ∧ (s.act a).call = s.call) ∨
      (∃ c cs, s.call = c :: cs ∧ (s.act a).manager = s.manager.doChore c ∧
        (s.act a).call = s.manager.followUps c ++ cs) ∨
      (∃ n l c cs, a = .takeIn n ∧ s.leftovers[n]? = some l ∧ l.queue = c :: cs ∧
        (s.act a).manager = s.manager.doChore c ∧ (s.act a).call = s.call) ∨
      ∃ mv, mv.isBeside = true ∧ (s.manager.move mv).services = none ∧
        (s.act a).manager = s.manager.move mv ∧ (s.act a).call = s.call := by
  cases a with
  | proceed =>
    cases hcall : s.call with
    | nil => exact Or.inl (by simp only [act, hcall, and_self])
    | cons c cs => exact Or.inr (Or.inl ⟨c, cs, rfl, by simp only [act, hcall, and_self]⟩)
  | takeIn n =>
    rcases hleftover : s.leftovers[n]? with - | ⟨kind, producing, reported, - | ⟨c, cs⟩⟩
    · exact Or.inl (by simp only [act, hleftover, and_self])
    · exact Or.inl (by simp only [act, hleftover, and_self])
    · exact Or.inr (Or.inr (Or.inl ⟨n, _, c, cs, rfl, hleftover, rfl, by
        simp only [act, hleftover, and_self]⟩))
  | report n e => exact Or.inl ⟨rfl, rfl⟩
  | enqueue n => exact Or.inl ⟨rfl, rfl⟩
  | notice n => exact Or.inl ⟨rfl, rfl⟩
  | aside mv =>
    by_cases hmv : (mv.isBeside && (s.manager.move mv).services.isNone) = true
    · have hact : s.act (.aside mv) = { s with manager := s.manager.move mv } := if_pos hmv
      obtain ⟨hbeside, hnone⟩ := Bool.and_eq_true_iff.mp hmv
      refine Or.inr (Or.inr (Or.inr ⟨mv, hbeside, Option.isNone_iff_eq_none.mp hnone, ?_⟩))
      rw [hact]
      exact ⟨rfl, rfl⟩
    · have hact : s.act (.aside mv) = s := if_neg hmv
      rw [hact]
      exact Or.inl ⟨rfl, rfl⟩

theorem Begun.act (h : s.Begun) (a : PausingAct) : (s.act a).Begun := by
  rcases s.act_cases a with ⟨hm, hcall⟩ | ⟨c, cs, hbefore, hm, hcall⟩ |
    ⟨n, l, c, cs, -, -, -, hm, hcall⟩ | ⟨mv, -, hnone, hm, hcall⟩
  · exact ⟨hm ▸ h.sound, hm ▸ h.services, hcall ▸ h.clears⟩
  · have hclears : ∀ c' ∈ c :: cs, c'.Clears := hbefore ▸ h.clears
    refine ⟨hm ▸ h.sound.doChore c, hm ▸ (services_doChore _ c).trans h.services, fun c' hc' => ?_⟩
    rw [hcall] at hc'
    rcases List.mem_append.mp hc' with hc' | hc'
    · exact clears_of_mem_followUps (hclears c List.mem_cons_self) hc'
    · exact hclears c' (List.mem_cons_of_mem _ hc')
  · exact ⟨hm ▸ h.sound.doChore c, hm ▸ (services_doChore _ c).trans h.services,
      hcall ▸ h.clears⟩
  · exact ⟨hm ▸ h.sound.move mv, hm ▸ hnone, hcall ▸ h.clears⟩

theorem Begun.run (h : s.Begun) (acts : List PausingAct) : (s.run acts).Begun := by
  induction acts generalizing s with
  | nil => exact h
  | cons a acts ih => exact ih (h.act a)

/-! ## Taken in too late -/

/-- The task of a stopped watch made a resource remembered after the call had collected, and it has
    been remembered since. -/
def ReportedLate (s : Pausing) (acts : List PausingAct) (r : Resource) : Prop :=
  ∃ xs n l rest ys, acts = xs ++ .takeIn n :: ys ∧ .collect ∉ (s.run xs).call ∧
    (s.run xs).leftovers[n]? = some l ∧ l.queue = .insert r :: rest ∧
      ∀ zs, zs <+: ys → r ∈ (s.run (xs ++ .takeIn n :: zs)).manager.cache.values

theorem ReportedLate.mem {acts : List PausingAct} {r : Resource} (h : s.ReportedLate acts r) :
    r ∈ (s.run acts).manager.cache.values := by
  obtain ⟨xs, n, l, rest, ys, rfl, -, -, -, hys⟩ := h
  exact hys ys (List.prefix_refl ys)

theorem ReportedLate.concat {acts : List PausingAct} {r : Resource} (h : s.ReportedLate acts r)
    {a : PausingAct} (hr : r ∈ (s.run (acts ++ [a])).manager.cache.values) :
    s.ReportedLate (acts ++ [a]) r := by
  obtain ⟨xs, n, l, rest, ys, rfl, hcollected, hleftover, hqueue, hys⟩ := h
  refine ⟨xs, n, l, rest, ys ++ [a], by simp, hcollected, hleftover, hqueue, fun zs hzs => ?_⟩
  rcases List.prefix_concat_iff.mp hzs with rfl | hzs
  · simpa using hr
  · exact hys zs hzs

/-- Once the call has collected, what is remembered of the cluster is still to be forgotten or was
    taken in later. -/
theorem Begun.erase_or_reportedLate (h : s.Begun) (hstart : .collect ∈ s.call)
    {acts : List PausingAct} (hcollected : .collect ∉ (s.run acts).call) {r : Resource}
    (hr : r ∈ (s.run acts).manager.clusterScoped) :
    (∃ r', .erase r' ∈ (s.run acts).call ∧ r'.targetName = r.targetName) ∨
      s.ReportedLate acts r := by
  induction acts using List.reverseRecOn with
  | nil => exact absurd hstart hcollected
  | append_singleton acts a ih =>
    let t := s.run acts
    have ht : t.Begun := h.run acts
    have hrun : s.run (acts ++ [a]) = t.act a := run_append s acts [a]
    obtain ⟨hmem, hscoped⟩ := mem_clusterScoped.mp hr
    -- what was there before and still is keeps its reason
    have hbefore : .collect ∉ t.call → r ∈ t.manager.cache.values →
        (∃ r', .erase r' ∈ t.call ∧ r'.targetName = r.targetName) ∨
          s.ReportedLate (acts ++ [a]) r := fun hcollected hr =>
      (ih hcollected (mem_clusterScoped.mpr ⟨hr, hscoped⟩)).imp_right (·.concat hmem)
    rw [hrun] at hcollected hmem ⊢
    rcases t.act_cases a with ⟨hm, hnext⟩ | ⟨c, cs, hcall, hm, hnext⟩ |
      ⟨n, l, c, cs, rfl, hleftover, hqueue, hm, hnext⟩ | ⟨mv, hbeside, -, hm, hnext⟩
    · rw [hnext] at hcollected ⊢
      exact hbefore hcollected (hm ▸ hmem)
    · -- the call
      rw [hnext] at hcollected ⊢
      rw [hm] at hmem
      rw [hcall] at hbefore
      have hclears : c.Clears := ht.clears c (hcall ▸ List.mem_cons_self)
      cases c with
      | collect =>
        have hlisted : r ∈ t.manager.clusterScoped := mem_clusterScoped.mpr ⟨hmem, hscoped⟩
        have herase : Chore.erase r ∈ t.manager.followUps .collect :=
          List.mem_append_left _ (List.mem_map_of_mem hlisted)
        exact Or.inl ⟨r, List.mem_append_left _ herase, rfl⟩
      | erase r' =>
        have hcollected' : .collect ∉ Chore.erase r' :: cs :=
          List.not_mem_cons_of_ne_of_not_mem nofun hcollected
        have hold := (mem_of_doChore hmem).resolve_right nofun
        refine (hbefore hcollected' hold).imp_left ?_
        rintro ⟨r'', hr'', hname⟩
        rcases List.mem_cons.mp hr'' with heq | hr''
        · obtain rfl : r'' = r' := Chore.erase.inj heq
          exact absurd hname (ht.sound.targetName_ne_of_mem_erase hmem)
        · exact ⟨r'', hr'', hname⟩
      | giveUp r' =>
        have hcollected' : .collect ∉ Chore.giveUp r' :: cs :=
          List.not_mem_cons_of_ne_of_not_mem nofun hcollected
        refine (hbefore hcollected' hmem).imp_left ?_
        rintro ⟨r'', hr'', hname⟩
        exact ⟨r'', (List.mem_cons.mp hr'').resolve_left nofun, hname⟩
      | insert r' => exact hclears.elim
      | discover r' => exact hclears.elim
      | relist kind rs => exact hclears.elim
    · -- the task of a stopped watch
      rw [hnext] at hcollected ⊢
      rcases mem_of_doChore (hm ▸ hmem) with hold | rfl
      · exact hbefore hcollected hold
      · refine Or.inr ⟨acts, n, l, cs, [], rfl, hcollected, hleftover, hqueue, fun zs hzs => ?_⟩
        rw [List.prefix_nil.mp hzs, hrun]
        exact hmem
    · -- anything else
      rw [hnext] at hcollected ⊢
      rw [hm] at hmem
      obtain ⟨k, hk⟩ := KeyMap.mem_values_iff.mp hmem
      have hold := spares_move ht.services hbeside k r hk hscoped
      exact hbefore hcollected (KeyMap.mem_values_iff.mpr ⟨k, hold⟩)

end Pausing

/-- In whatever order the chores of a call that pauses and those of the stopped watches are done,
    and whatever else happens before services are watched again, once the call has returned a
    resource of the cluster is remembered exactly if the task of a stopped watch took it in after
    the call had collected, and it has been remembered since. -/
theorem remembered_iff_reportedLate (settings : Settings) (nodeName : String)
    (daemon scrapeCluster : Bool) (moves : List Move)
    (hwatched : ((create settings nodeName daemon scrapeCluster).run moves).services.isSome = true)
    (acts : List PausingAct) :
    let begun := ((create settings nodeName daemon scrapeCluster).run moves).beginPause
    let s := begun.run acts
    s.call = [] → ∀ r, r.kind.isClusterScoped = true →
      (r ∈ s.manager.cache.values ↔ begun.ReportedLate acts r) := by
  intro begun s hreturned r hscoped
  have hs := (sound_create settings nodeName daemon scrapeCluster).run moves
  have hbegun : begun.Begun := Pausing.begun_beginPause hs
  have hstart : .collect ∈ begun.call := by
    obtain ⟨w, hw⟩ := Option.isSome_iff_exists.mp hwatched
    show Chore.collect ∈ (beginPause _).call
    rw [beginPause_eq hw]
    exact List.mem_singleton_self _
  have hcall : ∀ c, c ∉ (begun.run acts).call := by
    intro c
    rw [show (begun.run acts).call = [] from hreturned]
    exact List.not_mem_nil
  constructor
  · intro hr
    have hwhy := hbegun.erase_or_reportedLate hstart (hcall _) (mem_clusterScoped.mpr ⟨hr, hscoped⟩)
    exact hwhy.resolve_left fun ⟨r', hr', _⟩ => hcall _ hr'
  · exact Pausing.ReportedLate.mem

/-- While the agent leads, more is reported of a service than the task of the watch can take in at a
    time, and leadership is lost before the task has its turn. In this turn events are put into the
    queue. Then the task that follows leadership pauses and finds nothing to forget, the queue is
    taken in afterwards, and the service goes on being remembered. -/
theorem exists_remembered_after_pause :
    let service : Resource :=
      { kind := .service, ip := "10.96.0.1", object := { name := "x", ns := "ns" } }
    let m := (create {} "node-1" true true).run
      ([.start, .settle, .changeLeadership (·.lead true "node-1"), .settle] ++
        List.replicate 130 (.report .service (.applied service)) ++
        [.changeLeadership (·.lead false "node-2"), .settle])
    m.leading = false ∧ m.services = none ∧ m.retired = [] ∧ m.ready = [] ∧
      m.clusterScoped = [service] := by
  decide +kernel

/-- A service is in the queue when the call begins. The task takes it in after the call had
    collected. -/
theorem reportedLate_of_queued_service :
    let service : Resource :=
      { kind := .service, ip := "10.96.0.1", object := { name := "x", ns := "ns" } }
    let m := (create {} "node-1" false true).run
      [.start, .settle, .report .service (.applied service), .enqueue .service]
    let acts : List PausingAct := [.proceed, .proceed, .takeIn 0, .takeIn 0]
    m.services.isSome = true ∧ (m.beginPause.run acts).call = [] ∧
      m.beginPause.ReportedLate acts service := by
  intro service m acts
  have hstate : m.services.isSome = true ∧ (m.beginPause.run acts).call = [] ∧
      service ∈ (m.beginPause.run acts).manager.cache.values := by
    decide +kernel
  obtain ⟨hwatched, hreturned, hmem⟩ := hstate
  refine ⟨hwatched, hreturned, ?_⟩
  have hiff := remembered_iff_reportedLate {} "node-1" false true
    [.start, .settle, .report .service (.applied service), .enqueue .service] hwatched acts
    hreturned service rfl
  dsimp only [m] at hmem
  exact hiff.mp hmem

end ScrapeDiscovery.Manager

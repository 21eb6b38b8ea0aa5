import ScrapeDiscovery.Proofs.Cluster.Knowledge
import ScrapeDiscovery.Proofs.Cluster.Objects
import ScrapeDiscovery.Proofs.Manager.Pausing

/-!
# What is remembered follows the watched objects

A watch of pods or of services reports objects in any phase. An object that is to be
discovered is remembered as the resource that it is, one that is not is forgotten, and a
list of all objects makes whatever is missing from it, or not to be discovered any
longer, forgotten as well. Both watches write to one map, and a list is compared with
what is remembered of its own kind. So what is remembered of a kind is what its watch
knows of and what is to be discovered, as long as that watch is not stopped.

Results:
* `Sound.mem_gone_iff`: what a list makes forgotten.
* `Sound.get?_cache_event`: what is remembered of an object after an event of its watch.
* `Sound.get?_cache_event_of_ne`: an event leaves everything of other kinds alone.
* `Mirrors.event`, `Mirrors.aside`: events, and everything else that may happen meanwhile.
* `cache_mirrors_knowledge`: what is remembered after any sequence of events.
-/

namespace ScrapeDiscovery

open Cluster

namespace Cluster

/-- What tells the objects of a kind apart. -/
def Observed.key (o : Observed) : String × String := (o.resource.object.ns, o.resource.object.name)

/-- The name of the target of the object of a kind that has this namespace and name. -/
def targetOf (kind : ResourceKind) (key : String × String) : String :=
  targetName kind { ns := key.1, name := key.2 }

/-- A namespace and a name as the cluster has them. -/
def IsPlainKey (key : String × String) : Prop := '/' ∉ key.1.toList ∧ '/' ∉ key.2.toList

instance (key : String × String) : Decidable (IsPlainKey key) :=
  inferInstanceAs (Decidable (_ ∧ _))

/-- An event of the watch of a kind as the cluster sends them: it is about objects of this kind
    with plain names, and a list has each object once. -/
structure ObjectEvent.IsOrdinary (kind : ResourceKind) (e : ObjectEvent Observed) : Prop where
  kind : ∀ o ∈ e.objects, o.resource.kind = kind
  plain : ∀ o ∈ e.objects, IsPlainKey o.key
  nodup : (e.objects.map Observed.key).Nodup

theorem targetName_eq_targetOf (r : Resource) :
    r.targetName = targetOf r.kind (r.object.ns, r.object.name) := rfl

theorem targetOf_inj {kind : ResourceKind} {a b : String × String} (ha : IsPlainKey a)
    (hb : IsPlainKey b) : targetOf kind a = targetOf kind b ↔ a = b := by
  rw [targetOf, targetOf, targetName_inj ⟨ha.1, ha.2⟩ ⟨hb.1, hb.2⟩]
  exact Prod.ext_iff.symm

end Cluster

namespace Manager

variable {m m' : Manager}

/-! ## What is remembered after an event -/

theorem get?_foldl_insert (c : KeyMap Resource) (rs : List Resource) (k : String) :
    (rs.foldl (fun c r => c.insert r.targetName r) c).get? k =
      (listed Resource.targetName rs k).or (c.get? k) := by
  induction rs using List.reverseRecOn with
  | nil => rfl
  | append_singleton rs r ih =>
    rw [List.foldl_append, List.foldl_cons, List.foldl_nil, KeyMap.get?_insert, ih, listed_concat,
      Function.update_apply]
    split_ifs <;> rfl

theorem cache_foldl_discover (m : Manager) (rs : List Resource) :
    (rs.foldl discover m).cache = rs.foldl (fun c r => c.insert r.targetName r) m.cache :=
  (List.foldl_hom cache fun _ _ => rfl).symm

theorem cache_foldl_forget (m : Manager) (rs : List Resource) :
    (rs.foldl forget m).cache = rs.foldl (fun c r => c.erase r.targetName) m.cache :=
  (List.foldl_hom cache fun _ _ => rfl).symm

/-- What a list of all resources of a kind makes forgotten: what is remembered of this kind and is
    missing from the list. -/
theorem Sound.mem_gone_iff (hs : m.Sound) {kind : ResourceKind} {rs : List Resource}
    {k : String} :
    k ∈ (m.gone kind rs).map Resource.targetName ↔
      (∃ r, m.cache.get? k = some r ∧ r.kind = kind) ∧
        listed Resource.targetName rs k = none := by
  simp only [gone, List.mem_map, List.mem_filter, Bool.and_eq_true, decide_eq_true_eq,
    Bool.not_eq_true', ← Bool.not_eq_true, List.contains_iff_mem, listed_eq_none_iff]
  constructor
  · rintro ⟨r, ⟨hcached, hkind, hmissing⟩, rfl⟩
    exact ⟨⟨r, hs.get?_of_mem hcached, hkind⟩, fun r' hr' hname => hmissing ⟨r', hr', hname⟩⟩
  · rintro ⟨⟨r, hr, hkind⟩, hmissing⟩
    obtain rfl : r.targetName = k := hs.keyed k r hr
    refine ⟨r, ⟨KeyMap.mem_values_iff.mpr ⟨_, hr⟩, hkind, ?_⟩, rfl⟩
    exact fun ⟨r', hr', hname⟩ => hmissing r' hr' hname

/-- What is remembered under a name after a list of all resources of a kind: the resource in the
    list, and else what was remembered, unless it is of this kind. -/
theorem Sound.get?_cache_restarted (hs : m.Sound) (kind : ResourceKind) (rs : List Resource)
    (k : String) :
    (m.apply kind (.restarted rs)).cache.get? k =
      (listed Resource.targetName rs k).or ((m.cache.get? k).filter (·.kind ≠ kind)) := by
  show (rs.foldl discover ((m.gone kind rs).foldl forget m)).cache.get? k = _
  rw [cache_foldl_discover, get?_foldl_insert, cache_foldl_forget, get?_foldl_erase]
  cases hlisted : listed Resource.targetName rs k with
  | some r => rfl
  | none =>
    rw [Option.none_or, Option.none_or]
    cases hk : m.cache.get? k with
    | none => exact ite_self _
    | some r =>
      have hgone : k ∈ (m.gone kind rs).map Resource.targetName ↔ r.kind = kind := by
        rw [hs.mem_gone_iff, hlisted, hk]
        simp
      rw [Option.filter_some]
      by_cases hkind : r.kind = kind
      · rw [if_pos (hgone.mpr hkind), if_neg (by simpa using hkind)]
      · rw [if_neg (mt hgone.mp hkind), if_pos (by simpa using hkind)]

/-! ## Events of the watch of a kind -/

/-- The kind of a resource can be read off the name of its target. -/
theorem kind_of_targetName_eq {r : Resource} {kind : ResourceKind} {key : String × String}
    (h : r.targetName = targetOf kind key) : r.kind = kind := by
  let other : Resource := ⟨kind, "", { ns := key.1, name := key.2 }, []⟩
  have hname : r.targetName = other.targetName := h
  exact Resource.kind_eq_of_targetName_eq hname

variable {kind : ResourceKind}

/-- Of listed objects the ones that are to be discovered, by the names of their targets. -/
theorem listed_discoverable {os : List Observed}
    (he : (ObjectEvent.restarted os).IsOrdinary kind) {key : String × String}
    (hkey : IsPlainKey key) :
    listed Resource.targetName (os.filterMap Observed.discoverable) (targetOf kind key) =
      (listed Observed.key os key).bind Observed.discoverable := by
  have hname : ∀ o ∈ os, ∀ r, o.discoverable = some r → r.targetName = targetOf kind o.key := by
    intro o ho r hr
    rw [Observed.discoverable_eq_resource hr, targetName_eq_targetOf, he.kind o ho]
    rfl
  have hnodup : ((os.filterMap Observed.discoverable).map Resource.targetName).Nodup := by
    have hkeys : os.Pairwise fun o o' => o.key ≠ o'.key := List.pairwise_map.mp he.nodup
    refine List.pairwise_map.mpr (List.Pairwise.filterMap _ ?_ (List.Pairwise.and_mem.mp hkeys))
    rintro o o' ⟨ho, ho', hne⟩ r hr r' hr' heq
    rw [hname o ho r hr, hname o' ho' r' hr', targetOf_inj (he.plain o ho) (he.plain o' ho')] at heq
    exact hne heq
  have hlisted : ∀ o, listed Observed.key os key = some o ↔ o ∈ os ∧ o.key = key := fun _ =>
    listed_eq_some_iff he.nodup
  refine Option.ext fun r => ?_
  rw [listed_eq_some_iff hnodup, List.mem_filterMap, Option.bind_eq_some_iff]
  simp only [hlisted]
  constructor
  · rintro ⟨⟨o, ho, hr⟩, htarget⟩
    rw [hname o ho r hr, targetOf_inj (he.plain o ho) hkey] at htarget
    exact ⟨o, ⟨ho, htarget⟩, hr⟩
  · rintro ⟨o, ⟨ho, rfl⟩, hr⟩
    exact ⟨⟨o, ho, hr⟩, hname o ho r hr⟩

/-- An object that was added or changed is remembered if it is to be discovered, and else
    forgotten. -/
theorem get?_cache_applied (m : Manager) (kind : ResourceKind) (o : Observed) (k : String) :
    (m.apply kind (ObjectEvent.applied o).toResourceEvent).cache.get? k =
      if k = o.resource.targetName then o.discoverable else m.cache.get? k := by
  cases hready : o.isReady with
  | true =>
    have hevent : (ObjectEvent.applied o).toResourceEvent = .applied o.resource := if_pos hready
    rw [hevent, Observed.discoverable, hready]
    exact KeyMap.get?_insert _ _ _ _
  | false =>
    have hevent : (ObjectEvent.applied o).toResourceEvent = .deleted o.resource :=
      if_neg (Bool.eq_false_iff.mp hready)
    rw [hevent, Observed.discoverable, hready]
    exact KeyMap.get?_erase _ _ _

/-- What is remembered of an object after an event of its watch. -/
theorem Sound.get?_cache_event (hs : m.Sound) {v : Knowledge (String × String) Observed}
    (hv : ∀ key, IsPlainKey key →
      m.cache.get? (targetOf kind key) = (v key).bind Observed.discoverable)
    {e : ObjectEvent Observed} (he : e.IsOrdinary kind) {key : String × String}
    (hkey : IsPlainKey key) :
    (m.apply kind e.toResourceEvent).cache.get? (targetOf kind key) =
      (v.take Observed.key e key).bind Observed.discoverable := by
  -- what is known of one object is set where its target has its name
  have hset : ∀ o ∈ e.objects, ∀ version : Option Observed,
      (if targetOf kind key = o.resource.targetName then version.bind Observed.discoverable
        else m.cache.get? (targetOf kind key)) =
        (Function.update v o.key version key).bind Observed.discoverable := by
    intro o ho version
    have hsame : targetOf kind key = o.resource.targetName ↔ key = o.key := by
      rw [targetName_eq_targetOf, he.kind o ho]
      exact targetOf_inj hkey (he.plain o ho)
    rw [Function.update_apply, hv key hkey]
    by_cases hkeys : key = o.key
    · rw [if_pos hkeys, if_pos (hsame.mpr hkeys)]
    · rw [if_neg hkeys, if_neg (mt hsame.mp hkeys)]
  cases e with
  | applied o => exact (get?_cache_applied m kind o _).trans (hset o List.mem_cons_self (some o))
  | deleted o => exact (KeyMap.get?_erase _ _ _).trans (hset o List.mem_cons_self none)
  | restarted os =>
    have hnone : (m.cache.get? (targetOf kind key)).filter (·.kind ≠ kind) = none := by
      rw [Option.filter_eq_none_iff]
      intro r hr
      simpa using kind_of_targetName_eq (hs.keyed _ r hr)
    rw [toResourceEvent_restarted, hs.get?_cache_restarted, hnone, Option.or_none,
      listed_discoverable he hkey]
    rfl

/-- An event of the watch of a kind changes nothing under other names, unless a resource of this
    kind is remembered there. -/
theorem Sound.get?_cache_event_of_ne (hs : m.Sound) {e : ObjectEvent Observed}
    (he : e.IsOrdinary kind) {k : String} (hk : ∀ o ∈ e.objects, k ≠ o.resource.targetName)
    (hother : ∀ r, m.cache.get? k = some r → r.kind ≠ kind) :
    (m.apply kind e.toResourceEvent).cache.get? k = m.cache.get? k := by
  cases e with
  | applied o => rw [get?_cache_applied, if_neg (hk o List.mem_cons_self)]
  | deleted o => exact KeyMap.get?_erase_of_ne (hk o List.mem_cons_self)
  | restarted os =>
    have hnone : listed Resource.targetName (os.filterMap Observed.discoverable) k = none := by
      rw [listed_eq_none_iff]
      intro r hr
      obtain ⟨o, ho, hr⟩ := List.mem_filterMap.mp hr
      rw [Observed.discoverable_eq_resource hr]
      exact (hk o ho).symm
    rw [toResourceEvent_restarted, hs.get?_cache_restarted, hnone, Option.none_or]
    cases hcached : m.cache.get? k with
    | none => rfl
    | some r => rw [Option.filter_some, if_pos (by simpa using hother r hcached)]

theorem Sound.mem_cache_iff (hs : m.Sound) {r : Resource} :
    r ∈ m.cache.values ↔ m.cache.get? r.targetName = some r :=
  ⟨hs.get?_of_mem, fun h => KeyMap.mem_values_iff.mpr ⟨_, h⟩⟩

/-- What is remembered of other kinds stays as it is. -/
theorem Sound.mem_cache_event_of_ne (hs : m.Sound) {e : ObjectEvent Observed}
    (he : e.IsOrdinary kind) {r : Resource} (hr : r.kind ≠ kind) :
    r ∈ (m.apply kind e.toResourceEvent).cache.values ↔ r ∈ m.cache.values := by
  have hs' : (m.apply kind e.toResourceEvent).Sound := (hs.apply_tidies kind _).sound
  rw [hs.mem_cache_iff, hs'.mem_cache_iff, hs.get?_cache_event_of_ne he]
  · intro o ho hname
    exact hr ((Resource.kind_eq_of_targetName_eq hname).trans (he.kind o ho))
  · intro r' hr'
    rw [Resource.kind_eq_of_targetName_eq (hs.keyed _ r' hr')]
    exact hr

/-- What is remembered after an event was remembered before, or the event is about it. -/
theorem Sound.mem_cache_event (hs : m.Sound) {e : ObjectEvent Observed} {r : Resource}
    (hr : r ∈ (m.apply kind e.toResourceEvent).cache.values) :
    r ∈ m.cache.values ∨ ∃ o ∈ e.objects, r = o.resource := by
  obtain ⟨k, hk⟩ := KeyMap.mem_values_iff.mp hr
  cases e with
  | applied o =>
    rw [get?_cache_applied] at hk
    split_ifs at hk
    · exact Or.inr ⟨o, List.mem_cons_self, Observed.discoverable_eq_resource hk⟩
    · exact Or.inl (KeyMap.mem_values_iff.mpr ⟨k, hk⟩)
  | deleted o => exact Or.inl (KeyMap.mem_values_iff.mpr ⟨k, (KeyMap.get?_erase_eq_some hk).2⟩)
  | restarted os =>
    rw [toResourceEvent_restarted, hs.get?_cache_restarted, Option.or_eq_some_iff] at hk
    rcases hk with hk | ⟨-, hk⟩
    · obtain ⟨o, ho, hr⟩ := List.mem_filterMap.mp (listed_eq_some hk).1
      exact Or.inr ⟨o, ho, Observed.discoverable_eq_resource hr⟩
    · exact Or.inl (KeyMap.mem_values_iff.mpr ⟨k, (Option.filter_eq_some_iff.mp hk).1⟩)

/-! ## What happens meanwhile -/

/-- What is remembered of a kind mirrors what a watch knows: each object that is to be discovered,
    and nothing else. -/
structure Mirrors (kind : ResourceKind) (v : Knowledge (String × String) Observed)
    (m : Manager) : Prop where
  object : ∀ key, IsPlainKey key →
    m.cache.get? (targetOf kind key) = (v key).bind Observed.discoverable
  plain : ∀ r ∈ m.cache.values, r.kind = kind → IsPlainKey (r.object.ns, r.object.name)

theorem Mirrors.event {v : Knowledge (String × String) Observed} (h : m.Mirrors kind v)
    (hs : m.Sound) {e : ObjectEvent Observed} (he : e.IsOrdinary kind) :
    (m.apply kind e.toResourceEvent).Mirrors kind (v.take Observed.key e) := by
  refine ⟨fun key hkey => hs.get?_cache_event h.object he hkey, fun r hr hkind => ?_⟩
  rcases hs.mem_cache_event hr with hr | ⟨o, ho, rfl⟩
  · exact h.plain r hr hkind
  · exact he.plain o ho

theorem Mirrors.aside {v : Knowledge (String × String) Observed} (h : m.Mirrors kind v)
    (hs : m.Sound) (hs' : m'.Sound)
    (hsame : ∀ r, r.kind = kind → (r ∈ m'.cache.values ↔ r ∈ m.cache.values)) :
    m'.Mirrors kind v := by
  refine ⟨fun key hkey => ?_, fun r hr hkind => h.plain r ((hsame r hkind).mp hr) hkind⟩
  have hiff : ∀ {m : Manager}, m.Sound → ∀ r, m.cache.get? (targetOf kind key) = some r ↔
      r.targetName = targetOf kind key ∧ r ∈ m.cache.values := by
    intro m hs r
    constructor
    · intro hr
      exact ⟨hs.keyed _ r hr, KeyMap.mem_values_iff.mpr ⟨_, hr⟩⟩
    · rintro ⟨hname, hr⟩
      exact hname ▸ hs.mem_cache_iff.mp hr
  rw [← h.object key hkey]
  refine Option.ext fun r => ?_
  rw [hiff hs', hiff hs]
  exact and_congr_right fun hname => hsame r (kind_of_targetName_eq hname)

/-- Whether a move neither takes in what was reported nor stops the watch of services. -/
def Move.keepsCache : Move → Bool
  | .stop | .pause | .takeNext _ | .apply .. | .settle => false
  | .task t => t = .resync
  | _ => true

theorem cache_move {mv : Move} (h : mv.keepsCache = true) (m : Manager) :
    (m.move mv).cache = m.cache := by
  cases mv with
  | start => exact cache_start m
  | resume => exact cache_resume m
  | report kind e => exact cache_changeWatch m kind _
  | endWatch kind => exact cache_changeWatch m kind _
  | enqueue kind => exact cache_enqueue m kind
  | task t =>
    obtain rfl : t = .resync := of_decide_eq_true h
    show (if m.resyncing then m.runResync else m).cache = m.cache
    split
    · exact cache_runResync m
    · rfl
  | changeSettings f => exact cache_changeSettings m f
  | changeLeadership f => exact cache_changeLeadership m f
  | resync => exact resync_cache m
  | adopt => exact cache_adopt m
  | replay r => rfl
  | stop => cases h
  | pause => cases h
  | takeNext kind => cases h
  | apply kind e => cases h
  | settle => cases h

/-- A pause of the watch of services makes no pod forgotten. -/
theorem mem_cache_pause {r : Resource} (hr : r.kind = .pod) :
    r ∈ m.pause.cache.values ↔ r ∈ m.cache.values := by
  unfold pause
  split
  · rfl
  · next w _ =>
    show r ∈ ((({ m with services := none } : Manager).retire w).cache.filter
      fun _ r => !r.kind.isClusterScoped).values ↔ _
    rw [retire, cache_wake, KeyMap.values_filter, List.mem_filter, hr]
    exact and_iff_left rfl

/-! ## Every sequence of events -/

/-- What may happen to a manager. -/
inductive Occurrence where
  /-- An event of the watch of a kind is taken in. -/
  | event (kind : ResourceKind) (e : ObjectEvent Observed)
  | aside (mv : Move)

/-- Whether something may happen while the watch of a kind goes on: the events of the two watches
    are as the cluster sends them, and nothing stops this watch. -/
def Occurrence.IsFair (kind : ResourceKind) : Occurrence → Prop
  | .event kind' e => e.IsOrdinary kind'
  | .aside mv => mv.keepsCache = true ∨ mv = .pause ∧ kind = .pod

/-- The state after an occurrence. -/
def occur (m : Manager) : Occurrence → Manager
  | .event kind e => m.apply kind e.toResourceEvent
  | .aside mv => m.move mv

/-- The events of the watch of a kind. -/
def eventsOf (kind : ResourceKind) (os : List Occurrence) : List (ObjectEvent Observed) :=
  os.filterMap fun
    | .event kind' e => if kind' = kind then some e else none
    | .aside _ => none

theorem Sound.occur (hs : m.Sound) (o : Occurrence) : (m.occur o).Sound := by
  cases o with
  | event kind e => exact (hs.apply_tidies kind _).sound
  | aside mv => exact hs.move mv

theorem mem_eventsOf {os : List Occurrence} {e : ObjectEvent Observed}
    (he : e ∈ eventsOf kind os) : .event kind e ∈ os := by
  obtain ⟨o, ho, hevent⟩ := List.mem_filterMap.mp he
  cases o with
  | event kind' e' =>
    dsimp only at hevent
    split_ifs at hevent with hkind
    rw [← hkind, ← Option.some.inj hevent]
    exact ho
  | aside mv => cases hevent

/-- What the watch of a kind knows after a sequence of occurrences. -/
def known (kind : ResourceKind) (os : List Occurrence) : Knowledge (String × String) Observed :=
  .run Observed.key (eventsOf kind os)

theorem known_concat (os : List Occurrence) (o : Occurrence) :
    known kind (os ++ [o]) = match o with
      | .event kind' e =>
        if kind' = kind then (known kind os).take Observed.key e else known kind os
      | .aside _ => known kind os := by
  rw [known, eventsOf, List.filterMap_append]
  cases o with
  | event kind' e =>
    rw [List.filterMap_cons]
    dsimp only
    split_ifs with hkind
    · exact Knowledge.run_concat _ _ _
    · exact congrArg _ (List.append_nil _)
  | aside mv => exact congrArg _ (List.append_nil _)

/-- Where nothing of a kind is remembered, this mirrors what a watch knows at first. -/
theorem Sound.mirrors_none (hs : m.Sound) (hnone : ∀ r ∈ m.cache.values, r.kind ≠ kind) :
    m.Mirrors kind fun _ => none := by
  refine ⟨fun key _ => Option.eq_none_iff_forall_ne_some.mpr fun r hr => ?_, fun r hr hkind => ?_⟩
  · exact hnone r (KeyMap.mem_values_iff.mpr ⟨_, hr⟩) (kind_of_targetName_eq (hs.keyed _ r hr))
  · exact absurd hkind (hnone r hr)

theorem Mirrors.occur {os : List Occurrence} (h : m.Mirrors kind (known kind os)) (hs : m.Sound)
    {o : Occurrence} (ho : o.IsFair kind) : (m.occur o).Mirrors kind (known kind (os ++ [o])) := by
  rw [known_concat]
  cases o with
  | event kind' e =>
    dsimp only
    split_ifs with hkind
    · subst hkind
      exact h.event hs ho
    · refine h.aside hs (hs.occur _) fun r hr => hs.mem_cache_event_of_ne ho ?_
      rw [hr]
      exact Ne.symm hkind
  | aside mv =>
    refine h.aside hs (hs.occur _) fun r hr => ?_
    rcases ho with hkeeps | ⟨rfl, hpod⟩
    · show r ∈ (m.move mv).cache.values ↔ _
      rw [cache_move hkeeps]
    · exact mem_cache_pause (hr.trans hpod)

/-- What is remembered of a kind after occurrences mirrors what its watch knows then. -/
theorem Sound.mirrors_occurrences (hs : m.Sound) (hnone : ∀ r ∈ m.cache.values, r.kind ≠ kind)
    {os : List Occurrence} (hos : ∀ o ∈ os, o.IsFair kind) :
    (os.foldl Manager.occur m).Sound ∧ (os.foldl Manager.occur m).Mirrors kind (known kind os) := by
  induction os using List.reverseRecOn with
  | nil => exact ⟨hs, hs.mirrors_none hnone⟩
  | append_singleton os o ih =>
    obtain ⟨hs', hm⟩ := ih fun o ho => hos o (List.mem_append_left _ ho)
    rw [List.foldl_append]
    exact ⟨hs'.occur o, hm.occur hs' (hos o (List.mem_append_right _ List.mem_cons_self))⟩

/-- From when nothing of a kind is remembered, and as long as the watch of this kind is not
    stopped, what is remembered of it are, after events in any order, the resources of the objects
    that the watch knows of and that are to be discovered: of pods those that run and have an
    address, of services those that have a cluster address. An event of the watch changes nothing
    that is remembered of another kind. -/
theorem cache_mirrors_knowledge (settings : Settings) (nodeName : String)
    (daemon scrapeCluster : Bool) (moves : List Move) (kind : ResourceKind)
    (os : List Occurrence) :
    let start := (create settings nodeName daemon scrapeCluster).run moves
    let m := os.foldl occur start
    (∀ r ∈ start.cache.values, r.kind ≠ kind) → (∀ o ∈ os, o.IsFair kind) →
    (∀ r, r ∈ m.cache.values ∧ r.kind = kind ↔
      ∃ key o, known kind os key = some o ∧ o.isReady = true ∧ r = o.resource) ∧
    (∀ e : ObjectEvent Observed, e.IsOrdinary kind → ∀ r, r.kind ≠ kind →
      (r ∈ (m.apply kind e.toResourceEvent).cache.values ↔ r ∈ m.cache.values)) ∧
    (∀ j o, pod? j = some o → (o.isReady = true ↔
      textIn? j "status" "phase" = some "Running" ∧
        ∃ ip, textIn? j "status" "podIP" = some ip ∧ ip ≠ "")) ∧
    ∀ j o, service? j = some o → (o.isReady = true ↔
      ∃ ip, textIn? j "spec" "clusterIP" = some ip ∧ ip ≠ "" ∧ ip ≠ "None") := by
  intro start m hnone hos
  have hstart : start.Sound := (sound_create settings nodeName daemon scrapeCluster).run moves
  obtain ⟨hs, hm⟩ := hstart.mirrors_occurrences hnone hos
  refine ⟨fun r => ⟨?_, ?_⟩, fun e he r hr => hs.mem_cache_event_of_ne he hr, fun j o hj => ?_,
    fun j o hj => ?_⟩
  · rintro ⟨hr, rfl⟩
    have hcached := hs.mem_cache_iff.mp hr
    rw [targetName_eq_targetOf, hm.object _ (hm.plain r hr rfl), Option.bind_eq_some_iff] at hcached
    obtain ⟨o, ho, hready⟩ := hcached
    obtain rfl := Observed.discoverable_eq_resource hready
    refine ⟨_, o, ho, ?_, rfl⟩
    by_contra hnot
    rw [Observed.discoverable, if_neg hnot] at hready
    cases hready
  · rintro ⟨key, o, ho, hready, rfl⟩
    have hordinary : ∀ e ∈ eventsOf kind os, e.IsOrdinary kind := fun e he =>
      hos _ (mem_eventsOf he)
    obtain ⟨⟨hkind, hplain⟩, rfl⟩ :=
      Knowledge.of_run_eq_some (P := fun o => o.resource.kind = kind ∧ IsPlainKey o.key)
        (fun e he o ho => ⟨(hordinary e he).kind o ho, (hordinary e he).plain o ho⟩) ho
    refine ⟨KeyMap.mem_values_iff.mpr ⟨_, (hm.object _ hplain).trans ?_⟩, hkind⟩
    rw [ho]
    exact if_pos hready
  · obtain ⟨-, hip, hready⟩ := ready_of_pod? hj
    rw [hready, hip]
    simp
  · obtain ⟨-, hip, hready⟩ := ready_of_service? hj
    rw [hready, hip]
    simp

/-- Of two listed pods one is not to be discovered yet. Then it is, and the other one no longer,
    while a service of the same name comes and settings are looked at. -/
theorem other_pod_remembered :
    let pod : String → Bool → Observed := fun name isReady =>
      ⟨{ kind := .pod, ip := "10.0.0.1", object := { name, ns := "ns" } }, isReady⟩
    let service : Observed :=
      ⟨{ kind := .service, ip := "10.0.0.2", object := { name := "x", ns := "ns" } }, true⟩
    let os : List Occurrence :=
      [.event .pod (.restarted [pod "x" true, pod "y" false]), .event .service (.applied service),
        .aside .resync, .event .pod (.applied (pod "y" true)),
        .event .pod (.applied (pod "x" false))]
    let start := (create {} "node-1" false true).run [.start]
    let m := os.foldl occur start
    (∀ r ∈ start.cache.values, r.kind ≠ .pod) ∧ (∀ o ∈ os, o.IsFair .pod) ∧
      m.cache.keys = ["pod/ns/y", "service/ns/x"] ∧
      ∃ key o, known .pod os key = some o ∧ o.isReady = true ∧
        (pod "y" true).resource = o.resource := by
  intro pod service os start m
  have hnone : ∀ r ∈ start.cache.values, r.kind ≠ .pod := by decide +kernel
  have hos : ∀ o ∈ os, o.IsFair .pod := by
    simp only [os, List.forall_mem_cons]
    refine ⟨⟨?_, ?_, ?_⟩, ⟨?_, ?_, ?_⟩, Or.inl rfl, ⟨?_, ?_, ?_⟩, ⟨?_, ?_, ?_⟩, nofun⟩
    all_goals decide
  have hkeys : m.cache.keys = ["pod/ns/y", "service/ns/x"] := by decide +kernel
  have hcached : (pod "y" true).resource ∈ m.cache.values := by decide +kernel
  have hmirrored := (cache_mirrors_knowledge {} "node-1" false true [.start] .pod os hnone hos).1
  exact ⟨hnone, hos, hkeys, (hmirrored _).mp ⟨hcached, rfl⟩⟩

end Manager

end ScrapeDiscovery

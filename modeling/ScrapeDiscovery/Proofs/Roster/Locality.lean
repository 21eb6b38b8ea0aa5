import ScrapeDiscovery.Proofs.Roster.Calls

/-!
# Target names do not meet

The handlers share the registries and the catalog, but whatever they keep there is
filed under the name of a target. A call about one target therefore changes nothing
that is filed under other names, and what it does depends on nothing that is.

`AgreeOn P` relates two rosters that show the same under all names that `P` picks. A
call leaves a roster in agreement on every name but its own, and two rosters that
agree on its name do the same about it.

Results:
* `agreeOn_delete`, `agreeOn_handle`: a call touches its own name only.
* `AgreeOn.delete`, `AgreeOn.handle`: a call reads its own name only.
* `AgreeOn.afresh_eq`: rosters that agree on all names are equal but for what they told.
-/

namespace ScrapeDiscovery

theorem KeyMap.contains_insert {α : Type} (m : KeyMap α) (k k' : String) (v : α) :
    (m.insert k v).contains k' = (decide (k' = k) || m.contains k') := by
  simp only [KeyMap.contains, KeyMap.get?_insert]
  by_cases hk : k' = k <;> simp [hk]

namespace Roster

variable {r s t : Roster}

/-! ## Open registries -/

/-- The registry of every handler has been opened. -/
def Opened (r : Roster) : Prop :=
  ∀ id registry, r.registryOf? id = some registry → r.registries.contains registry = true

theorem contains_of_owner? {registry target : String} {id : HandlerId}
    (ho : r.owner? registry target = some id) : r.registries.contains registry = true := by
  unfold owner? owners at ho
  unfold KeyMap.contains
  cases hm : r.registries.get? registry with
  | none =>
    rw [hm] at ho
    cases ho
  | some m => rfl

theorem contains_retract (hr : r.OwnersExist) (id : HandlerId) (target registry : String) :
    (r.retract id target).registries.contains registry = r.registries.contains registry := by
  cases hid : r.handler? id with
  | none => simp only [retract, hid]
  | some h =>
    rw [retract_eq hr hid]
    split_ifs with ho
    · refine (r.registries.contains_insert h.registry registry _).trans ?_
      by_cases hreg : registry = h.registry
      · rw [hreg, contains_of_owner? ho, Bool.or_true]
      · rw [decide_eq_false hreg, Bool.false_or]
    · rfl

theorem contains_retractAll (hr : r.OwnersExist) (id : HandlerId) (targets : List String)
    (registry : String) :
    (r.retractAll id targets).registries.contains registry = r.registries.contains registry := by
  induction targets generalizing r with
  | nil => rfl
  | cons t ts ih => exact (ih (ownersExist_retract hr id t)).trans (contains_retract hr id t _)

theorem contains_dismiss (hc : r.Consistent) (id : HandlerId) (p : String → Bool)
    (registry : String) :
    (r.dismiss id p).registries.contains registry = r.registries.contains registry :=
  contains_retractAll (ownersExist_update hc.ownersExist id _) id _ registry

theorem contains_commit (r : Roster) (id : HandlerId) (h : TargetHandler) (target : String)
    (config : ScrapeConfig) (registry : String) :
    (r.commit id h target config).registries.contains registry =
      (decide (registry = h.registry) || r.registries.contains registry) :=
  KeyMap.contains_insert _ _ _ _

theorem Opened.dismiss (ho : r.Opened) (hc : r.Consistent) (id : HandlerId)
    (p : String → Bool) : (r.dismiss id p).Opened := by
  intro i registry hi
  rw [registryOf?_dismiss hc] at hi
  rw [contains_dismiss hc]
  exact ho i registry hi

theorem Opened.commit (ho : r.Opened) {id : HandlerId} {h : TargetHandler}
    (hid : r.handler? id = some h) (target : String) (config : ScrapeConfig) :
    (r.commit id h target config).Opened := by
  intro i registry hi
  rw [registryOf?_commit hid] at hi
  rw [contains_commit, ho i registry hi, Bool.or_true]

theorem Opened.shut (ho : r.Opened) (id : HandlerId) : (r.shut id).Opened := by
  intro i registry hi
  refine ho i registry (Eq.trans ?_ hi)
  rw [registryOf?, registryOf?, Roster.shut, handler?_update]
  split_ifs with h
  · rw [h, Option.map_map]
    rfl
  · rfl

theorem Opened.add (ho : r.Opened) (h : TargetHandler) : (r.add h).Opened := by
  have hopen : ∀ registry, (r.add h).registries.contains registry =
      (decide (registry = h.registry) || r.registries.contains registry) := by
    intro registry
    show (r.openRegistry h.registry).registries.contains registry = _
    unfold openRegistry
    split_ifs with hc
    · by_cases hreg : registry = h.registry
      · rw [hreg, hc, Bool.or_true]
      · rw [decide_eq_false hreg, Bool.false_or]
    · exact KeyMap.contains_insert _ _ _ _
  intro i registry hi
  rw [hopen]
  rw [registryOf?, handler?_add] at hi
  split_ifs at hi with hnew
  · rw [decide_eq_true (Option.some.inj hi).symm, Bool.true_or]
  · rw [ho i registry hi, Bool.or_true]

/-! ## Agreement -/

/-- Two rosters agree on the names that `P` picks: their handlers are the same but for their
    targets, and under these names they show the same encodings, owners and live providers. They
    also have the same providers under what is no name of a provider of a target. -/
structure AgreeOn (P : String → Prop) (r s : Roster) : Prop where
  nextId : r.nextId = s.nextId
  blank : ∀ id, (r.handler? id).map (·.blank) = (s.handler? id).map (·.blank)
  opened : ∀ registry, r.registries.contains registry = s.registries.contains registry
  encoding : ∀ id target, P target → r.encoding id target = s.encoding id target
  owner : ∀ registry target, P target → r.owner? registry target = s.owner? registry target
  provider : ∀ k, (∀ factory target, k = providerName (Family.factoryName factory) target →
    P target) → r.catalog.get? k = s.catalog.get? k

namespace AgreeOn

variable {P Q : String → Prop}

theorem refl (r : Roster) : AgreeOn P r r :=
  ⟨rfl, fun _ => rfl, fun _ => rfl, fun _ _ _ => rfl, fun _ _ _ => rfl, fun _ _ => rfl⟩

theorem symm (h : AgreeOn P r s) : AgreeOn P s r :=
  ⟨h.nextId.symm, fun id => (h.blank id).symm, fun k => (h.opened k).symm,
    fun id t ht => (h.encoding id t ht).symm, fun k t ht => (h.owner k t ht).symm,
    fun k hk => (h.provider k hk).symm⟩

theorem trans (h : AgreeOn P r s) (h' : AgreeOn P s t) : AgreeOn P r t :=
  ⟨h.nextId.trans h'.nextId, fun id => (h.blank id).trans (h'.blank id),
    fun k => (h.opened k).trans (h'.opened k),
    fun id t ht => (h.encoding id t ht).trans (h'.encoding id t ht),
    fun k t ht => (h.owner k t ht).trans (h'.owner k t ht),
    fun k hk => (h.provider k hk).trans (h'.provider k hk)⟩

theorem mono (h : AgreeOn P r s) (hQ : ∀ t, Q t → P t) : AgreeOn Q r s :=
  ⟨h.nextId, h.blank, h.opened, fun id t ht => h.encoding id t (hQ t ht),
    fun k t ht => h.owner k t (hQ t ht),
    fun k hk => h.provider k fun f t he => hQ t (hk f t he)⟩

/-- Agreement on each of two sets of names. A provider is named after one target only. -/
theorem union (h : AgreeOn P r s) (h' : AgreeOn Q r s) : AgreeOn (fun t => P t ∨ Q t) r s := by
  refine ⟨h.nextId, h.blank, h.opened, fun id t ht => ?_, fun k t ht => ?_, fun k hk => ?_⟩
  · exact ht.elim (h.encoding id t) (h'.encoding id t)
  · exact ht.elim (h.owner k t) (h'.owner k t)
  · by_cases hP : ∀ f t, k = providerName (Family.factoryName f) t → P t
    · exact h.provider k hP
    · simp only [not_forall] at hP
      obtain ⟨f, t, rfl, hP⟩ := hP
      refine h'.provider _ fun f' t' he => ?_
      obtain ⟨-, rfl⟩ := providerName_inj.mp he
      exact (hk f t rfl).resolve_left hP

/-- What was told does not matter. -/
theorem note (h : AgreeOn P r s) (log log' : List LogEvent) (mishaps mishaps' : Mishaps) :
    AgreeOn P { r with log, mishaps } { s with log := log', mishaps := mishaps' } :=
  ⟨h.nextId, h.blank, h.opened, h.encoding, h.owner, h.provider⟩

theorem handler? (h : AgreeOn P r s) {id : HandlerId} {g : TargetHandler}
    (hid : r.handler? id = some g) :
    ∃ entries, s.handler? id = some { g with entries } := by
  have hb := h.blank id
  rw [hid, Option.map_some, eq_comm, Option.map_eq_some_iff] at hb
  obtain ⟨g', hid', hb⟩ := hb
  refine ⟨g'.entries, hid'.trans (congrArg some ?_)⟩
  cases g
  cases g'
  simp only [TargetHandler.blank, TargetHandler.mk.injEq] at hb ⊢
  exact ⟨hb.1, hb.2.1, hb.2.2.1, hb.2.2.2.1, trivial, hb.2.2.2.2.2⟩

theorem handler?_eq_none (h : AgreeOn P r s) {id : HandlerId} (hid : r.handler? id = none) :
    s.handler? id = none := by
  have hb := h.blank id
  rw [hid, Option.map_none, eq_comm, Option.map_eq_none_iff] at hb
  exact hb

theorem holds (h : AgreeOn P r s) {target : String} (ht : P target) (id : HandlerId) :
    r.holds id target = s.holds id target :=
  congrArg Option.isSome (h.encoding id target ht)

theorem isOpened (h : AgreeOn P r s) (ho : r.Opened) : s.Opened := by
  intro id registry hid
  have hb := congrArg (Option.map (·.registry)) (h.blank id)
  rw [Option.map_map, Option.map_map] at hb
  rw [← h.opened]
  exact ho id registry (hb.trans hid)

/-- Rosters that agree on all names have the same handlers. -/
theorem handler?_eq (h : AgreeOn (fun _ => True) r s) (id : HandlerId) :
    r.handler? id = s.handler? id := by
  cases hid : r.handler? id with
  | none => exact (h.handler?_eq_none hid).symm
  | some g =>
    obtain ⟨entries, hid'⟩ := h.handler? hid
    have hentries : r.entries id = s.entries id :=
      KeyMap.ext_get? fun t => h.encoding id t trivial
    have he : g.entries = entries := by
      rw [← entries_of_handler? hid, hentries, entries_of_handler? hid']
    rw [hid', ← he]

/-- And the same registries. -/
theorem registries_eq (h : AgreeOn (fun _ => True) r s) : r.registries = s.registries := by
  refine KeyMap.ext_get? fun registry => ?_
  have hopen := h.opened registry
  have howners : r.owners registry = s.owners registry :=
    KeyMap.ext_get? fun t => h.owner registry t trivial
  unfold KeyMap.contains at hopen
  unfold owners at howners
  rcases hm : r.registries.get? registry with _ | m <;>
    rcases hm' : s.registries.get? registry with _ | m' <;>
    simp only [hm, hm', Option.isSome_none, Option.isSome_some, Option.getD_some,
      reduceCtorEq] at hopen howners
  · rfl
  · rw [howners]

/-- Rosters that agree on all names are equal, but for what they told. -/
theorem afresh_eq (h : AgreeOn (fun _ => True) r s) : r.afresh = s.afresh := by
  have hhandlers : r.handlers = s.handlers := by
    have hlength : r.handlers.length = s.handlers.length := h.nextId
    refine List.ext_getElem hlength fun i hi hi' => ?_
    have hi := h.handler?_eq i
    simpa only [Roster.handler?, List.getElem?_eq_getElem, *, Option.join_some] using hi
  have hcatalog : r.catalog = s.catalog :=
    KeyMap.ext_get? fun k => h.provider k fun _ _ _ => trivial
  rw [afresh, afresh, hhandlers, h.registries_eq, hcatalog]

end AgreeOn

/-! ## What a call leaves alone -/

theorem agreeOn_note (P : String → Prop) (r : Roster) (log : List LogEvent)
    (mishaps : Mishaps) : AgreeOn P r { r with log, mishaps } :=
  (AgreeOn.refl r).note r.log log r.mishaps mishaps

/-- Giving up targets leaves all other names alone. -/
theorem agreeOn_dismiss (hc : r.Consistent) (id : HandlerId) (p : String → Bool) :
    AgreeOn (fun t => p t = false) r (r.dismiss id p) := by
  refine ⟨(nextId_dismiss r id p).symm, fun i => (((dismiss_retreat r id p).keeps hc).blank i).symm,
    fun k => (contains_dismiss hc id p k).symm, fun i t ht => ?_, fun k t ht => ?_, fun k hk => ?_⟩
  · rw [encoding_dismiss, if_neg]
    rw [ht]
    exact fun h => Bool.false_ne_true h.2
  · rw [owner?_dismiss hc, if_neg]
    rw [ht]
    exact fun h => Bool.false_ne_true h.2
  · cases hid : r.handler? id with
    | none =>
      rw [dismiss, picked_of_handler?_eq_none hid]
      rfl
    | some h =>
      rw [catalog_dismiss hc hid, if_neg]
      rintro ⟨t, ht, rfl⟩
      have hp := (mem_picked.mp ht).2
      rw [hk h.factory t rfl] at hp
      exact Bool.false_ne_true hp

/-- Publishing a target leaves all other names alone. -/
theorem agreeOn_commit (ho : r.Opened) {id : HandlerId} {h : TargetHandler}
    (hid : r.handler? id = some h) (target : String) (config : ScrapeConfig) :
    AgreeOn (· ≠ target) r (r.commit id h target config) := by
  refine ⟨(nextId_update r id _).symm, fun i => ?_, fun k => ?_, fun i t ht => ?_,
    fun k t ht => ?_, fun k hk => ?_⟩
  · rw [handler?_commit hid]
    split_ifs with hi
    · rw [hi, hid]
      rfl
    · rfl
  · rw [contains_commit]
    by_cases hk : k = h.registry
    · rw [hk, ho id h.registry (registryOf?_eq_some_iff.mpr ⟨h, hid, rfl⟩), Bool.or_true]
    · rw [decide_eq_false hk, Bool.false_or]
  · rw [encoding_commit hid, if_neg fun h => ht h.2]
  · rw [owner?_commit, if_neg fun h => ht h.2]
  · rw [catalog_commit, if_neg]
    rintro rfl
    exact hk h.factory target rfl rfl

/-- A call to give up a target leaves all other names alone. -/
theorem agreeOn_delete (hc : r.Consistent) (id : HandlerId) (target : String) :
    AgreeOn (· ≠ target) r (r.delete id target) := by
  cases hid : r.handler? id with
  | none =>
    rw [delete_of_handler?_eq_none hid]
    exact .refl r
  | some h =>
    rw [delete_eq hid]
    split_ifs
    · have hdismiss := agreeOn_dismiss hc id (· == target)
      exact (hdismiss.mono fun _ => beq_false_of_ne).trans (agreeOn_note _ _ _ _)
    · exact .refl r

/-- A call to bring the target of a resource up to date leaves all other names alone. -/
theorem agreeOn_handle (hc : r.Consistent) (ho : r.Opened) (id : HandlerId) (resource : Resource)
    (rule : Option Rule) (confirmed : Bool) :
    AgreeOn (· ≠ resource.targetName) r (r.handle id resource rule confirmed) := by
  cases hid : r.handler? id with
  | none =>
    rw [handle_of_handler?_eq_none hid]
    exact .refl r
  | some h =>
    have hcommit := agreeOn_commit ho hid resource.targetName
    rw [handle_eq hc hid]
    by_cases hforeign : (r.owner? h.registry resource.targetName).any (· ≠ id) = true
    · rw [if_pos hforeign]
      exact .refl r
    rw [if_neg hforeign]
    split
    · exact agreeOn_note _ _ _ _
    · next config henc =>
      rw [renew_eq hid henc]
      split_ifs
      · exact .refl r
      · exact .refl r
      · exact (hcommit config).trans (agreeOn_note _ _ _ _)
      · exact (hcommit config).trans (agreeOn_note _ _ _ _)
      · exact agreeOn_note _ _ _ _
    · split_ifs with hgive
      · simp only [Bool.and_eq_true] at hgive
        have hh := holds_iff_encoding.mpr (Option.isSome_iff_exists.mp hgive.1.1)
        have hdismiss := agreeOn_dismiss hc id (· == resource.targetName)
        rw [release_eq hid hh]
        exact (hdismiss.mono fun _ => beq_false_of_ne).trans (agreeOn_note _ _ _ _)
      · exact .refl r

/-! ## What a call depends on -/

namespace AgreeOn

variable {P : String → Prop}

/-- Rosters that agree, each followed by one that has changed under other names only. -/
theorem of_not {r' s' : Roster} (h : AgreeOn P r s) {target : String} (hP : ¬P target)
    (hr : AgreeOn (· ≠ target) r r') (hs : AgreeOn (· ≠ target) s s') : AgreeOn P r' s' := by
  have hne : ∀ t, P t → t ≠ target := fun t ht he => hP (he ▸ ht)
  exact (hr.mono hne).symm.trans (h.trans (hs.mono hne))

theorem dismiss (h : AgreeOn P r s) (hc : r.Consistent) (hc' : s.Consistent) (id : HandlerId)
    (p : String → Bool) : AgreeOn P (r.dismiss id p) (s.dismiss id p) := by
  refine ⟨?_, fun i => ?_, fun k => ?_, fun i t ht => ?_, fun k t ht => ?_, fun k hk => ?_⟩
  · rw [nextId_dismiss, nextId_dismiss, h.nextId]
  · rw [((dismiss_retreat r id p).keeps hc).blank, ((dismiss_retreat s id p).keeps hc').blank,
      h.blank]
  · rw [contains_dismiss hc, contains_dismiss hc', h.opened]
  · rw [encoding_dismiss, encoding_dismiss, h.encoding i t ht]
  · rw [owner?_dismiss hc, owner?_dismiss hc', h.owner k t ht]
  · cases hid : r.handler? id with
    | none =>
      have hid' := h.handler?_eq_none hid
      rw [Roster.dismiss, Roster.dismiss, picked_of_handler?_eq_none hid,
        picked_of_handler?_eq_none hid']
      exact h.provider k hk
    | some g =>
      obtain ⟨entries, hid'⟩ := h.handler? hid
      rw [catalog_dismiss hc hid, catalog_dismiss hc' hid', h.provider k hk]
      refine if_congr (exists_congr fun t => and_congr_left fun he => ?_) rfl rfl
      rw [mem_picked, mem_picked, h.holds (hk g.factory t he)]

theorem commit (h : AgreeOn P r s) {id : HandlerId} {g : TargetHandler}
    {entries : KeyMap ScrapeConfig} (hid : r.handler? id = some g)
    (hid' : s.handler? id = some { g with entries }) (target : String) (config : ScrapeConfig) :
    AgreeOn P (r.commit id g target config)
      (s.commit id { g with entries } target config) := by
  refine ⟨?_, fun i => ?_, fun k => ?_, fun i t ht => ?_, fun k t ht => ?_, fun k hk => ?_⟩
  · exact (nextId_update r id _).trans (h.nextId.trans (nextId_update s id _).symm)
  · rw [handler?_commit hid, handler?_commit hid']
    split_ifs
    · rfl
    · exact h.blank i
  · rw [contains_commit, contains_commit, h.opened]
  · rw [encoding_commit hid, encoding_commit hid', h.encoding i t ht]
  · rw [owner?_commit, owner?_commit, h.owner k t ht]
  · rw [catalog_commit, catalog_commit, h.provider k hk]

/-- A call to give up a target does the same on rosters that agree on its name. -/
theorem delete (h : AgreeOn P r s) (hc : r.Consistent) (hc' : s.Consistent) (id : HandlerId)
    (target : String) : AgreeOn P (r.delete id target) (s.delete id target) := by
  by_cases hP : P target
  · cases hid : r.handler? id with
    | none =>
      rw [delete_of_handler?_eq_none hid, delete_of_handler?_eq_none (h.handler?_eq_none hid)]
      exact h
    | some g =>
      obtain ⟨entries, hid'⟩ := h.handler? hid
      rw [delete_eq hid, delete_eq hid', h.holds hP]
      split_ifs
      · have hdismiss := h.dismiss hc hc' id (· == target)
        exact hdismiss.note _ _ _ _
      · exact h
  · exact h.of_not hP (agreeOn_delete hc id target) (agreeOn_delete hc' id target)

/-- A call to bring a target up to date does the same on rosters that agree on its name. -/
theorem handle (h : AgreeOn P r s) (hc : r.Consistent) (hc' : s.Consistent) (ho : r.Opened)
    (ho' : s.Opened) (id : HandlerId) (resource : Resource) (rule : Option Rule)
    (confirmed : Bool) :
    AgreeOn P (r.handle id resource rule confirmed) (s.handle id resource rule confirmed) := by
  by_cases hP : P resource.targetName
  · cases hid : r.handler? id with
    | none =>
      rw [handle_of_handler?_eq_none hid, handle_of_handler?_eq_none (h.handler?_eq_none hid)]
      exact h
    | some g =>
      obtain ⟨entries, hid'⟩ := h.handler? hid
      rw [handle_eq hc hid, handle_eq hc' hid', h.owner _ _ hP, h.encoding _ _ hP]
      dsimp only
      by_cases hforeign : (s.owner? g.registry resource.targetName).any (· ≠ id) = true
      · rw [if_pos hforeign, if_pos hforeign]
        exact h
      rw [if_neg hforeign, if_neg hforeign]
      split
      · exact h.note _ _ _ _
      · next config henc =>
        have hcommit := h.commit hid hid' resource.targetName config
        rw [renew_eq hid henc, renew_eq hid' henc]
        dsimp only
        split_ifs
        · exact h
        · exact h
        · exact hcommit.note _ _ _ _
        · exact hcommit.note _ _ _ _
        · exact h.note _ _ _ _
      · split_ifs with hgive
        · simp only [Bool.and_eq_true] at hgive
          have hh' := holds_iff_encoding.mpr (Option.isSome_iff_exists.mp hgive.1.1)
          have hh : r.holds id resource.targetName = true := (h.holds hP id).trans hh'
          have hdismiss := h.dismiss hc hc' id (· == resource.targetName)
          rw [release_eq hid hh, release_eq hid' hh']
          exact hdismiss.note _ _ _ _
        · exact h
  · exact h.of_not hP (agreeOn_handle hc ho id resource rule confirmed)
      (agreeOn_handle hc' ho' id resource rule confirmed)

end AgreeOn

end Roster

end ScrapeDiscovery

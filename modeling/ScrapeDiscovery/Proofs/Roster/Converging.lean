import ScrapeDiscovery.Proofs.Roster.Races

/-!
# Calls that do no harm

A race for a target takes two calls about it that overlap, of which one belongs to another
handler than the other or gives the target up. So a target is in order once all calls have
returned if calls about it do not overlap. It also is if they overlap, but all belong to
one handler and bring the target up to date.

Results:
* `agrees_of_no_overlap`: the calls about the target take turns.
* `agrees_of_updates`: the target is brought up to date by one handler.
-/

namespace ScrapeDiscovery

namespace Stage

/-- A call in this stage may do something about a target yet. -/
def Concerns : Stage → String → Prop
  | looking resource _ _, target => resource.targetName = target
  | reading resource _ _, target => resource.targetName = target
  | publishing target' _ _ _, target => target' = target
  | checking target', target => target' = target
  | withdrawing target', target => target' = target
  | shutting, _ => True
  | clearing, _ => True
  | retracting targets _, target => target ∈ targets
  | returned, _ => False

/-- A call in this stage brings a target up to date, or has returned. -/
def IsUpdate : Stage → Prop
  | looking .. => True
  | reading .. => True
  | publishing .. => True
  | returned => True
  | _ => False

theorem Promises.concerns {s : Stage} {target : String} (h : s.Promises target) :
    s.Concerns target := by
  cases s <;> first | exact h | exact h.elim

theorem Retracts.concerns {s : Stage} {target : String} (h : s.Retracts target) :
    s.Concerns target := by
  cases s <;> first | exact h | exact h.elim

theorem Retracts.not_isUpdate {s : Stage} {target : String} (h : s.Retracts target) :
    ¬s.IsUpdate := by
  cases s <;> first | exact h.elim | exact id

end Stage

namespace Traffic

/-! ## Calls that take turns -/

/-- If two calls that may do something about a target are never under way at the same time, the
    target is in order once all calls have returned. -/
theorem agrees_of_no_overlap (registry : String) (factory : Family)
    (members : List (Encoder × Bool)) {actions : List Action}
    (hquiet : ((assemble registry factory members).run actions).IsQuiet) {target : String}
    (halone : ∀ before, before <+: actions → ∀ (n m : Nat) (c d : Call),
      ((assemble registry factory members).run before).calls[n]? = some c →
      ((assemble registry factory members).run before).calls[m]? = some d →
      c.stage.Concerns target → d.stage.Concerns target → n = m) :
    ((assemble registry factory members).run actions).roster.Agrees registry factory target := by
  refine (agrees_iff_of_quiet registry factory members hquiet target).mpr fun id hrace => ?_
  obtain ⟨before, n, between, k, after, rfl, ⟨c, hc, hid, change, config, p, hs⟩,
    ⟨d, hd, hthreat⟩, -, -⟩ := hrace
  have hpromises : c.stage.Promises target := by
    rw [hs]
    rfl
  have hpre : before <+: before ++ .advance n :: between ++ .advance k :: after := by
    rw [List.append_assoc]
    exact List.prefix_append before _
  have hconcerns : d.stage.Concerns target := by
    rcases hthreat with ⟨-, h⟩ | ⟨-, h⟩
    · exact h.concerns
    · exact h.concerns
  obtain rfl := halone before hpre n k c d hc hd hpromises.concerns hconcerns
  obtain rfl := Option.some.inj (hc.symm.trans hd)
  rcases hthreat with ⟨hne, -⟩ | ⟨-, hretracts⟩
  · exact hne hid
  · exact hretracts.not_promises hpromises

/-! ## Updates -/

/-- No handler has targets that ask for themselves. -/
def Plain (r : Roster) : Prop := ∀ id h, r.handler? id = some h → h.useAnnotations = false

theorem plain_assemble (registry : String) (factory : Family) {members : List (Encoder × Bool)}
    (hmembers : ∀ m ∈ members, m.2 = false) : Plain (assemble registry factory members).roster := by
  refine List.foldlRecOn (motive := Plain) members _ (fun _ _ hid => by cases hid)
    fun r hr m hm id h hid => ?_
  rw [Roster.handler?_add] at hid
  split_ifs at hid
  · obtain rfl := Option.some.inj hid
    exact hmembers m hm
  · exact hr id h hid

theorem plain_publish {r r' : Roster} (hr : Plain r) {id : HandlerId} {target : String}
    {config : ScrapeConfig} {p : Provider} (hp : r.publish id target config p = some r') :
    Plain r' := by
  intro i h' hi
  unfold Roster.publish at hp
  split at hp
  · cases hp
  · next h hid =>
    split_ifs at hp
    obtain rfl := Option.some.inj hp
    have hi : (r.update id fun h => { h with entries := h.entries.insert target config }).handler? i
        = some h' := hi
    rw [Roster.handler?_update, hid] at hi
    split_ifs at hi
    · obtain rfl := Option.some.inj hi
      exact hr id h hid
    · exact hr i h' hi

/-- A call that brings a target up to date goes on to do so, and with no other target. -/
theorem isUpdate_step {r : Roster} (hr : Plain r) {c : Call} (hc : c.stage.IsUpdate) :
    Plain (c.step r).2 ∧ (c.step r).1.IsUpdate ∧
      ∀ target, (c.step r).1.Concerns target → c.stage.Concerns target := by
  obtain ⟨id, s⟩ := c
  cases hid : r.handler? id with
  | none =>
    simp only [Call.step, hid]
    exact ⟨hr, trivial, fun _ => False.elim⟩
  | some h =>
    rw [Call.step_eq hid]
    cases s with
    | looking resource rule confirmed =>
      have howner : Plain (r.owner h.registry resource.targetName).2 := by
        intro i h' hi
        rw [Roster.handler?, Roster.handlers_owner] at hi
        exact hr i h' hi
      simp only [Stage.step]
      refine ⟨howner, ?_, fun target => ?_⟩
      · split_ifs <;> trivial
      · split_ifs
        · exact False.elim
        · exact fun hs => hs
    | reading resource rule confirmed =>
      simp only [Stage.step, Stage.afterReading, hr id h hid]
      split
      · exact ⟨hr, trivial, fun _ => False.elim⟩
      · split_ifs
        · exact ⟨hr, trivial, fun _ => False.elim⟩
        all_goals
          split
          · exact ⟨hr, trivial, fun _ => False.elim⟩
          · exact ⟨hr, trivial, fun _ hs => hs⟩
      · rw [Bool.and_false, Bool.false_and, if_neg Bool.false_ne_true]
        exact ⟨hr, trivial, fun _ => False.elim⟩
    | publishing target' change config p =>
      simp only [Stage.step]
      split
      · exact ⟨hr, trivial, fun _ => False.elim⟩
      · next r' hp =>
        have hplain : Plain r' := plain_publish hr hp
        exact ⟨hplain, trivial, fun _ => False.elim⟩
    | returned => exact ⟨hr, trivial, fun _ => False.elim⟩
    | _ => exact hc.elim

/-- All calls bring targets up to date, and those about a certain target are calls of one
    handler. -/
structure Updates (id : HandlerId) (target : String) (t : Traffic) : Prop where
  plain : Plain t.roster
  updates : ∀ c ∈ t.calls, c.stage.IsUpdate ∧ (c.stage.Concerns target → c.handler = id)

theorem Updates.advance {id : HandlerId} {target : String} {t : Traffic}
    (ht : t.Updates id target) (n : Nat) : (t.advance n).Updates id target := by
  cases hc : t.calls[n]? with
  | none =>
    rw [advance_of_none hc]
    exact ht
  | some c =>
    obtain ⟨hupdate, hid⟩ := ht.updates c (List.mem_of_getElem? hc)
    obtain ⟨hplain, hupdate', hconcerns⟩ := isUpdate_step ht.plain hupdate
    refine ⟨?_, fun d hd => ?_⟩
    · rw [advance_eq hc]
      exact hplain
    · obtain ⟨m, hm⟩ := List.getElem?_of_mem hd
      rcases mem_calls_advance hc hm with hd | ⟨-, rfl⟩
      · exact ht.updates d (List.mem_of_getElem? hd)
      · exact ⟨hupdate', fun hs => hid (hconcerns target hs)⟩

/-- What is asked for are updates, and a certain target is asked of one handler only. -/
def AsksUpdates (id : HandlerId) (target : String) (actions : List Action) : Prop :=
  ∀ i request, .start i request ∈ actions → ∃ resource rule confirmed,
    request = .handle resource rule confirmed ∧ (resource.targetName = target → i = id)

theorem Updates.run {id : HandlerId} {target : String} {t : Traffic} (ht : t.Updates id target)
    {actions : List Action} (hasks : AsksUpdates id target actions) :
    (t.run actions).Updates id target := by
  induction actions generalizing t with
  | nil => exact ht
  | cons a actions ih =>
    refine ih ?_ fun i request hmem => hasks i request (List.mem_cons_of_mem a hmem)
    cases a with
    | start i request =>
      obtain ⟨resource, rule, confirmed, rfl, honly⟩ := hasks i request List.mem_cons_self
      refine ⟨ht.plain, fun c hc => ?_⟩
      rcases List.mem_append.mp hc with hc | hc
      · exact ht.updates c hc
      · rw [List.mem_singleton.mp hc]
        exact ⟨trivial, honly⟩
    | advance n => exact ht.advance n

/-- If one handler only is asked to bring a target up to date, however often and at the same time,
    and nothing else is asked for, the target is in order once all calls have returned. -/
theorem agrees_of_updates (registry : String) (factory : Family)
    {members : List (Encoder × Bool)} (hmembers : ∀ m ∈ members, m.2 = false)
    {actions : List Action}
    (hquiet : ((assemble registry factory members).run actions).IsQuiet) {id : HandlerId}
    {target : String} (hasks : AsksUpdates id target actions) :
    ((assemble registry factory members).run actions).roster.Agrees registry factory target := by
  refine (agrees_iff_of_quiet registry factory members hquiet target).mpr fun i hrace => ?_
  obtain ⟨before, n, between, k, after, rfl, ⟨c, hc, rfl, change, config, p, hs⟩,
    ⟨d, hd, hthreat⟩, -, -⟩ := hrace
  have hstart : (assemble registry factory members).Updates id target :=
    ⟨plain_assemble registry factory hmembers, fun _ h => absurd h List.not_mem_nil⟩
  have hupdates := hstart.run fun i request hmem => hasks i request
    (List.mem_append_left _ (List.mem_append_left _ hmem))
  have hcid : c.handler = id := by
    refine (hupdates.updates c (List.mem_of_getElem? hc)).2 ?_
    rw [hs]
    rfl
  obtain ⟨hupdate, hdid⟩ := hupdates.updates d (List.mem_of_getElem? hd)
  rcases hthreat with ⟨hne, hpromises⟩ | ⟨-, hretracts⟩
  · exact hne ((hdid hpromises.concerns).trans hcid.symm)
  · exact hretracts.not_isUpdate hupdate

end Traffic

end ScrapeDiscovery

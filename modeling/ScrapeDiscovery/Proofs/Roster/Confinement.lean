import ScrapeDiscovery.Proofs.Roster.Calls
import ScrapeDiscovery.Proofs.Roster.Interleaving

/-!
# What a call of a handler leaves alone

Handlers share their registries and the catalog. When one of them is asked to bring the
target of a resource up to date, the call may end in many ways: another handler owns the
target, the resource has no encoding or a faulty one, the encoding is the current one or
has no provider, the handler is closed, or the target is published or given up. Where it
is `Blocked` nothing is changed but the count of mishaps. However it ends, it is
`ConfinedTo` what the handler, its registry and the catalog keep for this one target.

A handler that is closed holds nothing, in every state that handlers reach from holding
nothing. Without this a closed handler could still give a target up.

Results:
* `handle_of_blocked`: a call that is blocked changes no handler, registry or provider.
* `handle_confined`: what a call can change.
* `orderly_reached`: closed handlers hold nothing, and registries record what is held.
* `blocked_and_confined`: both, for every handler in every state that is reached.
-/

namespace ScrapeDiscovery

/-- A handler as it begins: open, and without targets. -/
def TargetHandler.fresh (h : TargetHandler) : TargetHandler :=
  { h with entries := ∅, closed := false }

namespace Roster

variable {r : Roster} {id : HandlerId} {h : TargetHandler}

/-! ## What handlers reach -/

/-- What is asked of a handler: a request, or to give up the targets that are not in a list, all of
    them if there is no list. -/
inductive Demand where
  | ask (id : HandlerId) (request : Request)
  | deleteMissing (id : HandlerId) (keep : Option (List String))
  deriving DecidableEq, Repr

/-- The roster after a handler has done what was asked. -/
def Demand.perform (r : Roster) : Demand → Roster
  | .ask id request => request.perform r id
  | .deleteMissing id keep =>
    r.dismiss id fun target => keep.all fun names => !names.contains target

/-- Handlers with their registries, their factories and their encoders. None holds a target. -/
def gather (members : List TargetHandler) : Roster :=
  members.foldl (fun r h => r.add h.fresh) {}

/-- What handlers reach by doing what is asked of them, one after the other. -/
def reached (members : List TargetHandler) (demands : List Demand) : Roster :=
  demands.foldl Demand.perform (gather members)

/-- Registries record what is held, and closed handlers hold nothing. -/
structure Orderly (r : Roster) : Prop where
  consistent : r.Consistent
  closed : ∀ id h, r.handler? id = some h → h.closed = true → h.entries = ∅

theorem Orderly.of_keeps (ho : r.Orderly) {r' : Roster} (hk : r.Keeps r') : r'.Orderly := by
  refine ⟨hk.consistent, fun id h' hid' hclosed' => ?_⟩
  have hb := hk.blank id
  rw [hid', Option.map_some, eq_comm, Option.map_eq_some_iff] at hb
  obtain ⟨h, hid, hb⟩ := hb
  have hclosed : h.closed = true := (congrArg TargetHandler.closed hb).trans hclosed'
  have hempty := ho.closed id h hid hclosed
  obtain rfl := Option.some.inj (hid'.symm.trans (hk.closed id h hid hclosed hempty))
  exact hempty

theorem Orderly.close (ho : r.Orderly) (id : HandlerId) : (r.close id).Orderly := by
  refine ⟨ho.consistent.close id, fun i h' hi hclosed => ?_⟩
  rw [handler?_close ho.consistent] at hi
  split_ifs at hi
  · obtain ⟨h, -, rfl⟩ := Option.map_eq_some_iff.mp hi
    rfl
  · exact ho.closed i h' hi hclosed

theorem Orderly.perform (ho : r.Orderly) (demand : Demand) : (demand.perform r).Orderly := by
  cases demand with
  | deleteMissing id keep => exact ho.of_keeps ((dismiss_retreat r id _).keeps ho.consistent)
  | ask id request =>
    cases request with
    | handle resource rule confirmed =>
      exact ho.of_keeps (handle_keeps ho.consistent id resource rule confirmed)
    | delete target => exact ho.of_keeps (delete_keeps ho.consistent id target)
    | close => exact ho.close id

theorem orderly_gather (members : List TargetHandler) : (gather members).Orderly := by
  refine List.foldlRecOn (motive := Orderly) members _ ⟨fun _ _ _ => ?_, fun _ _ hid => ?_⟩ ?_
  · constructor
    · nofun
    · rintro ⟨hreg, -⟩
      cases hreg
  · cases hid
  · rintro r ho h -
    refine ⟨ho.consistent.add rfl, fun id g hid hclosed => ?_⟩
    rw [handler?_add] at hid
    split_ifs at hid
    · obtain rfl := Option.some.inj hid
      rfl
    · exact ho.closed id g hid hclosed

theorem orderly_reached (members : List TargetHandler) (demands : List Demand) :
    (reached members demands).Orderly :=
  List.foldlRecOn (motive := Orderly) demands _ (orderly_gather members)
    fun _ ho demand _ => ho.perform demand

/-! ## The members of a roster -/

theorem Keeps.fresh_eq {r' : Roster} (hk : r.Keeps r') (id : HandlerId) :
    (r'.handler? id).map (·.fresh) = (r.handler? id).map (·.fresh) := by
  have hb := congrArg (Option.map (·.fresh)) (hk.blank id)
  rw [Option.map_map, Option.map_map] at hb
  exact hb

/-- What is asked of handlers does not change what they began as. -/
theorem Orderly.fresh_perform (ho : r.Orderly) (demand : Demand) (i : HandlerId) :
    ((demand.perform r).handler? i).map (·.fresh) = (r.handler? i).map (·.fresh) := by
  cases demand with
  | deleteMissing id keep => exact ((dismiss_retreat r id _).keeps ho.consistent).fresh_eq i
  | ask id request =>
    cases request with
    | handle resource rule confirmed =>
      exact (handle_keeps ho.consistent id resource rule confirmed).fresh_eq i
    | delete target => exact (delete_keeps ho.consistent id target).fresh_eq i
    | close =>
      show ((r.close id).handler? i).map _ = _
      rw [handler?_close ho.consistent]
      split_ifs with hi
      · rw [hi, Option.map_map]
        rfl
      · rfl

theorem handlers_gather (members : List TargetHandler) :
    (gather members).handlers = members.map fun h => some h.fresh := by
  have hfrom : ∀ r : Roster, (members.foldl (fun r h => r.add h.fresh) r).handlers =
      r.handlers ++ members.map fun h => some h.fresh := by
    induction members with
    | nil => exact fun r => (List.append_nil _).symm
    | cons h members ih =>
      intro r
      have hadd : (r.add h.fresh).handlers = r.handlers ++ [some h.fresh] :=
        congrArg (· ++ [some h.fresh]) (openRegistry_handlers r _)
      refine (ih (r.add h.fresh)).trans ?_
      rw [hadd, List.map_cons, List.append_assoc, List.singleton_append]
  exact hfrom {}

theorem fresh_reached (members : List TargetHandler) (demands : List Demand) (id : HandlerId) :
    ((reached members demands).handler? id).map (·.fresh) = members[id]?.map (·.fresh) := by
  have hall : ∀ r : Roster, r.Orderly →
      ((demands.foldl Demand.perform r).handler? id).map (·.fresh) =
        (r.handler? id).map (·.fresh) := by
    induction demands with
    | nil => exact fun _ _ => rfl
    | cons demand demands ih =>
      exact fun r ho => (ih _ (ho.perform demand)).trans (ho.fresh_perform demand id)
  refine (hall _ (orderly_gather members)).trans ?_
  rw [handler?, handlers_gather, List.getElem?_map]
  cases members[id]? <;> rfl

/-! ## One target of one handler -/

/-- Two rosters differ at most in what they keep for one target of one handler: its encoding, its
    record in a registry and the provider of a factory. -/
structure ConfinedTo (r r' : Roster) (id : HandlerId) (registry : String) (factory : Family)
    (target : String) : Prop where
  others : ∀ i, i ≠ id → r'.handler? i = r.handler? i
  blank : (r'.handler? id).map (·.blank) = (r.handler? id).map (·.blank)
  encodings : ∀ t, t ≠ target → r'.encoding id t = r.encoding id t
  registries : ∀ k, k ≠ registry → r'.registries.get? k = r.registries.get? k
  owners : ∀ t, t ≠ target → r'.owner? registry t = r.owner? registry t
  catalog : ∀ k, k ≠ providerName factory.factoryName target →
    r'.catalog.get? k = r.catalog.get? k

namespace ConfinedTo

variable {registry target : String} {factory : Family}

theorem refl (r : Roster) : ConfinedTo r r id registry factory target :=
  ⟨fun _ _ => rfl, rfl, fun _ _ => rfl, fun _ _ => rfl, fun _ _ => rfl, fun _ _ => rfl⟩

theorem trans {r' r'' : Roster} (hr : ConfinedTo r r' id registry factory target)
    (hr' : ConfinedTo r' r'' id registry factory target) :
    ConfinedTo r r'' id registry factory target where
  others i hi := (hr'.others i hi).trans (hr.others i hi)
  blank := hr'.blank.trans hr.blank
  encodings t ht := (hr'.encodings t ht).trans (hr.encodings t ht)
  registries k hk := (hr'.registries k hk).trans (hr.registries k hk)
  owners t ht := (hr'.owners t ht).trans (hr.owners t ht)
  catalog k hk := (hr'.catalog k hk).trans (hr.catalog k hk)

theorem note (r : Roster) (log : List LogEvent) (mishaps : Mishaps) :
    ConfinedTo r { r with log, mishaps } id registry factory target :=
  ⟨fun _ _ => rfl, rfl, fun _ _ => rfl, fun _ _ => rfl, fun _ _ => rfl, fun _ _ => rfl⟩

/-- What a handler is given or loses for the target. -/
theorem update {f : TargetHandler → TargetHandler} (hblank : ∀ h, (f h).blank = h.blank)
    (hentries : ∀ h t, t ≠ target → (f h).entries.get? t = h.entries.get? t) :
    ConfinedTo r (r.update id f) id registry factory target where
  others i hi := handler?_update_of_ne hi f
  blank := by
    rw [handler?_update_self, Option.map_map]
    exact congrArg (Option.map · _) (funext hblank)
  encodings t ht := by
    have hself := handler?_update_self r id f
    cases hid : r.handler? id with
    | none =>
      rw [hid] at hself
      rw [encoding_of_handler?_eq_none hid, encoding_of_handler?_eq_none hself]
    | some h =>
      rw [hid] at hself
      rw [encoding_of_handler? hid, encoding_of_handler? hself, hentries h t ht]
  registries _ _ := rfl
  owners _ _ := rfl
  catalog _ _ := rfl

theorem addProvider (r : Roster) (config : ScrapeConfig) :
    ConfinedTo r (r.addProvider ⟨providerName factory.factoryName target, config⟩) id registry
      factory target :=
  ⟨fun _ _ => rfl, rfl, fun _ _ => rfl, fun _ _ => rfl, fun _ _ => rfl,
    fun _ hk => KeyMap.get?_insert_of_ne hk⟩

theorem deleteProvider (r : Roster) :
    ConfinedTo r (r.deleteProvider (providerName factory.factoryName target)) id registry
      factory target :=
  ⟨fun _ _ => rfl, rfl, fun _ _ => rfl, fun _ _ => rfl, fun _ _ => rfl,
    fun _ hk => KeyMap.get?_erase_of_ne hk⟩

theorem enroll (r : Roster) (i : HandlerId) :
    ConfinedTo r (r.enroll registry target i) id registry factory target where
  others _ _ := rfl
  blank := rfl
  encodings _ _ := rfl
  registries _ hk := KeyMap.get?_insert_of_ne hk
  owners t ht := (owner?_enroll r registry target i registry t).trans (if_neg fun h => ht h.2)
  catalog _ _ := rfl

theorem unenroll (r : Roster) :
    ConfinedTo r (r.unenroll registry target) id registry factory target where
  others _ _ := rfl
  blank := rfl
  encodings _ _ := rfl
  registries _ hk := KeyMap.get?_insert_of_ne hk
  owners t ht := (owner?_unenroll r registry target registry t).trans (if_neg fun h => ht h.2)
  catalog _ _ := rfl

end ConfinedTo

theorem commit_confined (r : Roster) (id : HandlerId) (h : TargetHandler) (target : String)
    (config : ScrapeConfig) :
    ConfinedTo r (r.commit id h target config) id h.registry h.factory target := by
  have hentry : ConfinedTo r (r.update id (·.including target config)) id h.registry h.factory
      target :=
    .update (fun _ => rfl) fun g t ht => KeyMap.get?_insert_of_ne ht
  exact (hentry.trans (.addProvider _ config)).trans (.enroll _ id)

theorem release_confined (hr : r.OwnersExist) (hid : r.handler? id = some h) (target : String) :
    ConfinedTo r (r.release id target) id h.registry h.factory target := by
  have hentry : ConfinedTo r (r.withdraw id (· == target)) id h.registry h.factory target := by
    refine .update (fun _ => rfl) fun g t ht => ?_
    simp only [KeyMap.get?_filter, beq_false_of_ne ht]
    cases g.entries.get? t <;> rfl
  have hid' : (r.withdraw id (· == target)).handler? id = some (h.without (· == target)) :=
    (handler?_update_self r id _).trans (congrArg _ hid)
  have hretract : ConfinedTo (r.withdraw id (· == target))
      ((r.withdraw id (· == target)).retract id target) id h.registry h.factory target := by
    have hexist : (r.withdraw id (· == target)).OwnersExist := ownersExist_update hr id _
    rw [retract_eq hexist hid']
    split_ifs
    · exact (ConfinedTo.deleteProvider _).trans (.unenroll _)
    · exact .refl _
  have hrelease : r.release id target =
      ((r.withdraw id (· == target)).retract id target).report
        (.targetChanged .deleted target h.factory.factoryName) := by
    rw [release, hid]
  rw [hrelease]
  exact (hentry.trans hretract).trans (.note _ _ _)

/-! ## Calls -/

/-- What a call can change. -/
theorem handle_confined (hc : r.Consistent) (hid : r.handler? id = some h) (resource : Resource)
    (rule : Option Rule) (confirmed : Bool) :
    ConfinedTo r (r.handle id resource rule confirmed) id h.registry h.factory
      resource.targetName := by
  rw [handle_eq hc hid]
  by_cases hforeign : (r.owner? h.registry resource.targetName).any (· ≠ id) = true
  · rw [if_pos hforeign]
    exact .refl r
  rw [if_neg hforeign]
  split
  · exact .note r r.log _
  · next config henc =>
    have hpublished := commit_confined r id h resource.targetName config
    rw [renew_eq hid henc]
    split_ifs
    · exact .refl r
    · exact .refl r
    · exact hpublished.trans (.note _ _ _)
    · exact hpublished.trans (.note _ _ _)
    · exact .note r r.log _
  · split_ifs
    · exact release_confined hc.ownersExist hid resource.targetName
    · exact .refl r

/-- No call changes another handler. -/
theorem handler?_handle_of_ne (hc : r.Consistent) {i : HandlerId} (hi : i ≠ id)
    (resource : Resource) (rule : Option Rule) (confirmed : Bool) :
    (r.handle id resource rule confirmed).handler? i = r.handler? i := by
  cases hid : r.handler? id with
  | none => rw [handle_of_handler?_eq_none hid]
  | some h => exact (handle_confined hc hid resource rule confirmed).others i hi

/-- A call cannot succeed: another handler owns the target, the resource cannot be encoded, no
    provider can be built from its encoding, or the handler is closed. -/
def Blocked (r : Roster) (id : HandlerId) (h : TargetHandler) (resource : Resource)
    (rule : Option Rule) : Prop :=
  (∃ i, r.owner? h.registry resource.targetName = some i ∧ i ≠ id) ∨
    (∃ e, h.encoder.encode resource.ip resource.kind resource.object rule = .error e) ∨
    (∃ config e, h.encoder.encode resource.ip resource.kind resource.object rule =
      .ok (some config) ∧ Provider.build h.factory config = .error e) ∨
    h.closed = true

/-- A call that is blocked changes no handler, registry or provider. -/
theorem handle_of_blocked (ho : r.Orderly) (hid : r.handler? id = some h) {resource : Resource}
    {rule : Option Rule} (hb : r.Blocked id h resource rule) (confirmed : Bool) :
    ∃ mishaps, r.handle id resource rule confirmed = { r with mishaps } := by
  rw [handle_eq ho.consistent hid]
  by_cases hforeign : (r.owner? h.registry resource.targetName).any (· ≠ id) = true
  · rw [if_pos hforeign]
    exact ⟨r.mishaps, rfl⟩
  rw [if_neg hforeign]
  cases henc : h.encoder.encode resource.ip resource.kind resource.object rule with
  | error e => exact ⟨_, rfl⟩
  | ok encoded =>
    replace hb : (∃ config e, encoded = some config ∧ Provider.build h.factory config = .error e) ∨
        h.closed = true := by
      rcases hb with ⟨i, hi, hne⟩ | ⟨e, he⟩ | ⟨config, e, hconfig, he⟩ | hclosed
      · exact absurd ((Option.any_eq_true _ _).mpr ⟨i, hi, decide_eq_true hne⟩) hforeign
      · cases henc.symm.trans he
      · exact Or.inl ⟨config, e, Except.ok.inj (henc.symm.trans hconfig), he⟩
      · exact Or.inr hclosed
    cases encoded with
    | some config =>
      simp only [renew]
      by_cases hcur : r.encoding id resource.targetName = some config
      · rw [if_pos hcur]
        exact ⟨r.mishaps, rfl⟩
      rw [if_neg hcur]
      cases hbuild : Provider.build h.factory config with
      | error e => exact ⟨_, rfl⟩
      | ok p =>
        rcases hb with ⟨config', e, hconfig, he⟩ | hclosed
        · obtain rfl := Option.some.inj hconfig
          cases hbuild.symm.trans he
        · simp only [publish_of_closed hid hclosed]
          exact ⟨r.mishaps, rfl⟩
    | none =>
      have hclosed : h.closed = true := by
        rcases hb with ⟨_, _, hconfig, -⟩ | hclosed
        · cases hconfig
        · exact hclosed
      -- a closed handler holds nothing that it could give up
      have hnone : r.encoding id resource.targetName = none := by
        rw [encoding_of_handler? hid, ho.closed id h hid hclosed]
        rfl
      simp only [hnone]
      exact ⟨r.mishaps, rfl⟩

/-- Handlers that share registries and the catalog do what is asked of them, in any order, from
    holding nothing. In every state that they reach, when one of them is asked to bring the target
    of a resource up to date and another one owns the target, the resource cannot be encoded, no
    provider can be built or the handler is closed, then nothing but a count of mishaps changes.
    However the call ends, all other handlers and registries stay as they are, the handler keeps
    its settings, and it, its registry and the catalog keep what they have under all names but
    those of the target and of its provider. -/
theorem blocked_and_confined (members : List TargetHandler) (demands : List Demand)
    {id : HandlerId} (hid : id < members.length) (resource : Resource) (rule : Option Rule)
    (confirmed : Bool) :
    let r := reached members demands
    let r' := r.handle id resource rule confirmed
    ∃ h, r.handler? id = some h ∧ h.fresh = members[id].fresh ∧
      (r.Blocked id h resource rule → ∃ mishaps, r' = { r with mishaps }) ∧
      ConfinedTo r r' id h.registry h.factory resource.targetName := by
  intro r r'
  have ho : r.Orderly := orderly_reached members demands
  have hmember := fresh_reached members demands id
  rw [List.getElem?_eq_getElem hid, Option.map_some, Option.map_eq_some_iff] at hmember
  obtain ⟨h, hh, hfresh⟩ := hmember
  exact ⟨h, hh, hfresh, fun hb => handle_of_blocked ho hh hb confirmed,
    handle_confined ho.consistent hh resource rule confirmed⟩

/-- Of two handlers that share a registry the first one has published a target. The second one is
    blocked. -/
theorem blocked_by_owner :
    let redis : Rule := { name := "a", pluginType := "telegraf/redis" }
    let pod : Resource :=
      { kind := .pod, ip := "10.0.0.1", object := { name := "x", ns := "ns" } }
    let member : TargetHandler :=
      { registry := "telegraf.redis", factory := .telegraf, encoder := .telegraf .redis }
    let r := reached [member, member] [.ask 0 (.handle pod (some redis) false)]
    1 < [member, member].length ∧ r.owner? "telegraf.redis" pod.targetName = some 0 ∧
      ∃ mishaps, r.handle 1 pod (some redis) false = { r with mishaps } := by
  intro redis pod member r
  have howner : r.owner? "telegraf.redis" pod.targetName = some 0 := by decide +kernel
  have hsecond : 1 < [member, member].length := by decide
  obtain ⟨h, -, hfresh, hblocked, -⟩ := blocked_and_confined [member, member]
    [.ask 0 (.handle pod (some redis) false)] hsecond pod (some redis) false
  have hregistry : h.registry = "telegraf.redis" := congrArg TargetHandler.registry hfresh
  exact ⟨hsecond, howner, hblocked (Or.inl ⟨0, hregistry ▸ howner, by decide⟩)⟩

end Roster

end ScrapeDiscovery

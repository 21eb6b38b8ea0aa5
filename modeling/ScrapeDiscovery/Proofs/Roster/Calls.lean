import ScrapeDiscovery.Proofs.Roster.Consistency

/-!
# What a call of a handler comes to

On a consistent roster a handler that is asked for something publishes one
target (`Advance`), gives some up (`Retreat`), or leaves the views as they are.
Publishing happens only under three guards: the handler is open, nobody else in
its registry owns the target, and the encoding belongs to the family of its
factory.

Results:
* `handle_eq`, `renew_eq`: what bringing a target up to date comes to.
* `delete_eq`: what giving up a target comes to.
* `handle_advance`, `delete_retreat`: the two kinds of calls.
* `handle_outcome`, `owner?_handle`, `encoding_handle`: when a call under a rule publishes.
* `Advance.keeps`, `Retreat.keeps`: what no call changes.
-/

namespace ScrapeDiscovery

/-- The encoding of a resource under a rule, if it has one. -/
def TargetHandler.encode? (h : TargetHandler) (resource : Resource) (rule : Option Rule) :
    Option ScrapeConfig :=
  (h.encoder.encode resource.ip resource.kind resource.object rule).toOption.join

namespace Roster

/-! ## Giving up one target -/

theorem picked_eq_singleton {r : Roster} {id : HandlerId} {target : String}
    (hh : r.holds id target = true) : r.picked id (· == target) = [target] := by
  rw [picked, List.filter_beq, (KeyMap.keys_nodup _).count]
  rw [if_pos]
  · rfl
  · rwa [holds, KeyMap.contains_iff, ← KeyMap.mem_keys_iff] at hh

theorem release_eq {r : Roster} {id : HandlerId} {h : TargetHandler} (hid : r.handler? id = some h)
    {target : String} (hh : r.holds id target = true) :
    r.release id target = (r.dismiss id (· == target)).report
      (.targetChanged .deleted target h.factory.factoryName) := by
  simp only [release, hid, dismiss, picked_eq_singleton hh]
  rfl

/-- A handler that holds a target gives it up; any other is left alone. -/
theorem delete_eq {r : Roster} {id : HandlerId} {h : TargetHandler} (hid : r.handler? id = some h)
    (target : String) :
    r.delete id target =
      if r.holds id target = true then
        (r.dismiss id (· == target)).report (.targetChanged .deleted target h.factory.factoryName)
      else r := by
  unfold delete
  split_ifs with hh
  · exact release_eq hid hh
  · rfl

theorem delete_of_handler?_eq_none {r : Roster} {id : HandlerId} (hid : r.handler? id = none)
    (target : String) : r.delete id target = r := by
  have hh : r.holds id target = false := by
    rw [holds, KeyMap.contains, ← encoding, encoding_of_handler?_eq_none hid]
    rfl
  rw [delete, hh]
  rfl

theorem encoding_delete (r : Roster) (id : HandlerId) (target : String) (i : HandlerId)
    (target' : String) :
    (r.delete id target).encoding i target' =
      if i = id ∧ target' = target then none else r.encoding i target' := by
  cases hid : r.handler? id with
  | none =>
    rw [delete_of_handler?_eq_none hid]
    split_ifs with hi
    · rw [hi.1, encoding_of_handler?_eq_none hid]
    · rfl
  | some h =>
    rw [delete_eq hid]
    by_cases hh : r.holds id target = true
    · rw [if_pos hh]
      refine (encoding_dismiss r id (· == target) i target').trans ?_
      simp only [beq_iff_eq]
    · rw [if_neg hh]
      split_ifs with hi
      · obtain ⟨rfl, rfl⟩ := hi
        rw [holds_iff_encoding, not_exists] at hh
        exact Option.eq_none_iff_forall_ne_some.mpr hh
      · rfl

/-! ## Bringing a target up to date -/

theorem handle_of_handler?_eq_none {r : Roster} {id : HandlerId} (hid : r.handler? id = none)
    (resource : Resource) (rule : Option Rule) (confirmed : Bool) :
    r.handle id resource rule confirmed = r := by
  simp only [handle, hid]

/-- Bringing the target of a resource up to date on a consistent roster. -/
theorem handle_eq {r : Roster} (hc : r.Consistent) {id : HandlerId} {h : TargetHandler}
    (hid : r.handler? id = some h) (resource : Resource) (rule : Option Rule) (confirmed : Bool) :
    r.handle id resource rule confirmed =
      if (r.owner? h.registry resource.targetName).any (· ≠ id) then r
      else
        match h.encoder.encode resource.ip resource.kind resource.object rule with
        | .error _ => { r with mishaps := { r.mishaps with encoding := r.mishaps.encoding + 1 } }
        | .ok (some config) =>
          r.renew id h resource.targetName (r.encoding id resource.targetName) config
        | .ok none =>
          if (r.encoding id resource.targetName).isSome && h.useAnnotations && confirmed then
            r.release id resource.targetName
          else r := by
  unfold handle
  rw [hid]
  dsimp only
  rewrite [owner_eq hc.ownersExist]
  rfl

/-- Publishing an encoding of the target of a resource. -/
theorem renew_eq {r : Roster} {id : HandlerId} {h : TargetHandler} (hid : r.handler? id = some h)
    {resource : Resource} {rule : Option Rule} {config : ScrapeConfig}
    (henc : h.encoder.encode resource.ip resource.kind resource.object rule = .ok (some config))
    (current : Option ScrapeConfig) :
    r.renew id h resource.targetName current config =
      if current = some config then r
      else if h.encoder.family = h.factory then
        if h.closed then r
        else (r.commit id h resource.targetName config).report
          (.targetChanged (if current.isSome then .updated else .added) resource.targetName
            h.factory.factoryName)
      else { r with mishaps := { r.mishaps with build := r.mishaps.build + 1 } } := by
  rw [renew, Encoder.build_of_encode h.factory henc]
  by_cases hcur : current = some config
  · rw [if_pos hcur, if_pos hcur]
  rw [if_neg hcur, if_neg hcur]
  by_cases hfam : h.encoder.family = h.factory
  · rw [if_pos hfam, if_pos hfam]
    simp only [publish_eq hid]
    cases h.closed <;> rfl
  · rw [if_neg hfam, if_neg hfam]

/-- A call is about one target of one handler. -/
theorem encoding_handle_of_ne {r : Roster} (hc : r.Consistent) {id i : HandlerId}
    {resource : Resource} {target : String} (hne : ¬(i = id ∧ target = resource.targetName))
    (rule : Option Rule) (confirmed : Bool) :
    (r.handle id resource rule confirmed).encoding i target = r.encoding i target := by
  cases hid : r.handler? id with
  | none => rw [handle_of_handler?_eq_none hid]
  | some h =>
    rw [handle_eq hc hid]
    by_cases hforeign : (r.owner? h.registry resource.targetName).any (· ≠ id) = true
    · rw [if_pos hforeign]
    rw [if_neg hforeign]
    split
    · rfl
    · next config henc =>
      have hcommit := (encoding_commit hid resource.targetName config i target).trans (if_neg hne)
      rw [renew_eq hid henc]
      by_cases hcur : r.encoding id resource.targetName = some config
      · rw [if_pos hcur]
      rw [if_neg hcur]
      split_ifs
      · rfl
      · exact hcommit
      · exact hcommit
      · rfl
    · split_ifs with hgive
      · simp only [Bool.and_eq_true] at hgive
        have hh := holds_iff_encoding.mpr (Option.isSome_iff_exists.mp hgive.1.1)
        rw [release_eq hid hh]
        refine (encoding_dismiss r id _ i target).trans (if_neg ?_)
        rw [beq_iff_eq]
        exact hne
      · rfl

/-! ## The two kinds of calls -/

/-- A handler has published a target, or nothing has changed that the views show. -/
inductive Advance (r : Roster) : Roster → Prop
  | note (log : List LogEvent) (mishaps : Mishaps) : Advance r { r with log, mishaps }
  | publish {id : HandlerId} {h : TargetHandler} {config : ScrapeConfig} {rule : Option Rule}
      (resource : Resource) (log : List LogEvent) (hid : r.handler? id = some h)
      (hopen : h.closed = false)
      (hfree : ∀ i, r.owner? h.registry resource.targetName = some i → i = id)
      (henc : h.encoder.encode resource.ip resource.kind resource.object rule = .ok (some config))
      (hfamily : config.family = h.factory) :
      Advance r { r.commit id h resource.targetName config with log }

/-- A handler has given up targets, or nothing has changed that the views show. -/
inductive Retreat (r : Roster) : Roster → Prop
  | note (log : List LogEvent) : Retreat r { r with log }
  | dismiss (id : HandlerId) (p : String → Bool) (log : List LogEvent) :
      Retreat r { r.dismiss id p with log }

theorem Advance.refl (r : Roster) : Advance r r := .note r.log r.mishaps

theorem Retreat.refl (r : Roster) : Retreat r r := .note r.log

theorem release_retreat {r : Roster} {id : HandlerId} {target : String}
    (hh : r.holds id target = true) : Retreat r (r.release id target) := by
  obtain ⟨h, -, hid, -⟩ := holds_iff.mp hh
  rw [release_eq hid hh]
  exact .dismiss id _ _

theorem delete_retreat (r : Roster) (id : HandlerId) (target : String) :
    Retreat r (r.delete id target) := by
  unfold delete
  split_ifs with hh
  · exact release_retreat hh
  · exact .refl r

theorem dismiss_retreat (r : Roster) (id : HandlerId) (p : String → Bool) :
    Retreat r (r.dismiss id p) := .dismiss id p _

theorem renew_advance {r : Roster} {id : HandlerId} {h : TargetHandler}
    (hid : r.handler? id = some h) {resource : Resource} {rule : Option Rule}
    {config : ScrapeConfig}
    (hfree : ∀ i, r.owner? h.registry resource.targetName = some i → i = id)
    (henc : h.encoder.encode resource.ip resource.kind resource.object rule = .ok (some config))
    (current : Option ScrapeConfig) :
    Advance r (r.renew id h resource.targetName current config) := by
  rw [renew_eq hid henc]
  by_cases hcur : current = some config
  · rw [if_pos hcur]
    exact .refl r
  rw [if_neg hcur]
  by_cases hfam : h.encoder.family = h.factory
  · rw [if_pos hfam]
    by_cases hclosed : h.closed = true
    · rw [if_pos hclosed]
      exact .refl r
    · rw [if_neg hclosed]
      have hfamily := (Encoder.encode_spec henc).2.1.trans hfam
      exact .publish resource _ hid (Bool.eq_false_iff.mpr hclosed) hfree henc hfamily
  · rw [if_neg hfam]
    exact .note _ _

/-- Bringing a target up to date publishes it or, where it asked for itself, may give it up. -/
theorem handle_cases {r : Roster} (hc : r.Consistent) (id : HandlerId) (resource : Resource)
    (rule : Option Rule) (confirmed : Bool) :
    Advance r (r.handle id resource rule confirmed) ∨
      confirmed = true ∧ Retreat r (r.handle id resource rule confirmed) := by
  cases hid : r.handler? id with
  | none =>
    rw [handle_of_handler?_eq_none hid]
    exact Or.inl (.refl r)
  | some h =>
    rw [handle_eq hc hid]
    by_cases hforeign : (r.owner? h.registry resource.targetName).any (· ≠ id) = true
    · rw [if_pos hforeign]
      exact Or.inl (.refl r)
    rw [if_neg hforeign]
    split
    · exact Or.inl (.note _ _)
    · next config henc =>
      refine Or.inl (renew_advance hid (fun i hi => ?_) henc _)
      rw [hi] at hforeign
      simpa using hforeign
    · split_ifs with hgive
      · simp only [Bool.and_eq_true] at hgive
        have hh := holds_iff_encoding.mpr (Option.isSome_iff_exists.mp hgive.1.1)
        exact Or.inr ⟨hgive.2, release_retreat hh⟩
      · exact Or.inl (.refl r)

theorem handle_advance {r : Roster} (hc : r.Consistent) (id : HandlerId) (resource : Resource)
    (rule : Option Rule) : Advance r (r.handle id resource rule false) :=
  (handle_cases hc id resource rule false).resolve_right fun h => Bool.false_ne_true h.1

/-! ## What a call under a rule publishes -/

/-- An open handler whose encoder belongs to its factory publishes every encoding, unless another
    handler owns the target or the encoding is already there. -/
theorem handle_outcome {r : Roster} (hc : r.Consistent) {id : HandlerId} {h : TargetHandler}
    (hid : r.handler? id = some h) (hopen : h.closed = false)
    (hfamily : h.encoder.family = h.factory) (resource : Resource) (rule : Option Rule) :
    (∃ log mishaps, r.handle id resource rule false = { r with log, mishaps }) ∧
        ((∃ i, r.owner? h.registry resource.targetName = some i ∧ i ≠ id) ∨
          h.encode? resource rule = none ∨
            h.encode? resource rule = r.encoding id resource.targetName) ∨
      ∃ config log, (∀ i, r.owner? h.registry resource.targetName = some i → i = id) ∧
        h.encode? resource rule = some config ∧
        r.handle id resource rule false =
          { r.commit id h resource.targetName config with log } := by
  rw [handle_eq hc hid]
  by_cases hforeign : (r.owner? h.registry resource.targetName).any (· ≠ id) = true
  · rw [if_pos hforeign]
    obtain ⟨i, hi, hne⟩ := (Option.any_eq_true _ _).mp hforeign
    exact Or.inl ⟨⟨r.log, r.mishaps, rfl⟩, Or.inl ⟨i, hi, of_decide_eq_true hne⟩⟩
  rw [if_neg hforeign]
  have hfree : ∀ i, r.owner? h.registry resource.targetName = some i → i = id := by
    intro i hi
    rw [hi] at hforeign
    simpa using hforeign
  split
  · next henc =>
    have hnone : h.encode? resource rule = none := by
      rw [TargetHandler.encode?, henc]
      rfl
    exact Or.inl ⟨⟨_, _, rfl⟩, Or.inr (Or.inl hnone)⟩
  · next config henc =>
    have hsome : h.encode? resource rule = some config := by
      rw [TargetHandler.encode?, henc]
      rfl
    rw [renew_eq hid henc]
    by_cases hcur : r.encoding id resource.targetName = some config
    · rw [if_pos hcur]
      exact Or.inl ⟨⟨r.log, r.mishaps, rfl⟩, Or.inr (Or.inr (hsome.trans hcur.symm))⟩
    · rw [if_neg hcur, if_pos hfamily, hopen, if_neg Bool.false_ne_true]
      exact Or.inr ⟨config, _, hfree, hsome, rfl⟩
  · next henc =>
    have hnone : h.encode? resource rule = none := by
      rw [TargetHandler.encode?, henc]
      rfl
    rw [if_neg (by simp)]
    exact Or.inl ⟨⟨r.log, r.mishaps, rfl⟩, Or.inr (Or.inl hnone)⟩

theorem owner?_handle {r : Roster} (hc : r.Consistent) {id : HandlerId} {h : TargetHandler}
    (hid : r.handler? id = some h) (hopen : h.closed = false)
    (hfamily : h.encoder.family = h.factory) (resource : Resource) (rule : Option Rule)
    (registry : String) :
    (r.handle id resource rule false).owner? registry resource.targetName =
      if registry = h.registry ∧ (h.encode? resource rule).isSome = true then
        (r.owner? registry resource.targetName).or (some id)
      else r.owner? registry resource.targetName := by
  rcases handle_outcome hc hid hopen hfamily resource rule with
    ⟨⟨log, mishaps, heq⟩, hwhy⟩ | ⟨config, log, hfree, henc, heq⟩
  · rw [heq]
    show r.owner? registry resource.targetName = _
    split_ifs with hreg
    · obtain ⟨rfl, henc⟩ := hreg
      rcases hwhy with ⟨i, hi, -⟩ | hnone | hcur
      · rw [hi, Option.some_or]
      · rw [hnone] at henc
        cases henc
      · rw [hcur] at henc
        have hh := holds_iff_encoding.mpr (Option.isSome_iff_exists.mp henc)
        rw [(hc _ _ _).mpr ⟨registryOf?_eq_some_iff.mpr ⟨h, hid, rfl⟩, hh⟩, Option.some_or]
    · rfl
  · rw [heq]
    show (r.commit id h resource.targetName config).owner? registry resource.targetName = _
    rw [owner?_commit, henc]
    by_cases hreg : registry = h.registry
    · subst hreg
      rw [if_pos ⟨rfl, rfl⟩, if_pos ⟨rfl, rfl⟩]
      cases ho : r.owner? h.registry resource.targetName with
      | none => rfl
      | some i => rw [hfree i ho, Option.some_or]
    · rw [if_neg fun h => hreg h.1, if_neg fun h => hreg h.1]

theorem encoding_handle {r : Roster} (hc : r.Consistent) {id : HandlerId} {h : TargetHandler}
    (hid : r.handler? id = some h) (hopen : h.closed = false)
    (hfamily : h.encoder.family = h.factory) (resource : Resource) (rule : Option Rule) :
    (r.handle id resource rule false).encoding id resource.targetName =
      if ∀ i, r.owner? h.registry resource.targetName = some i → i = id then
        (h.encode? resource rule).or (r.encoding id resource.targetName)
      else r.encoding id resource.targetName := by
  rcases handle_outcome hc hid hopen hfamily resource rule with
    ⟨⟨log, mishaps, heq⟩, hwhy⟩ | ⟨config, log, hfree, henc, heq⟩
  · rw [heq]
    show r.encoding id resource.targetName = _
    split_ifs with hfree
    · rcases hwhy with ⟨i, hi, hne⟩ | hnone | hcur
      · exact absurd (hfree i hi) hne
      · rw [hnone, Option.none_or]
      · rw [hcur, Option.or_self]
    · rfl
  · rw [heq, if_pos hfree, henc, Option.some_or]
    show (r.commit id h resource.targetName config).encoding id resource.targetName = _
    rw [encoding_commit hid, if_pos ⟨rfl, rfl⟩]

/-- Whoever holds a target after being asked for an encoding of it holds that encoding. -/
theorem config_eq_of_encoding_handle {r : Roster} (hc : r.Consistent) {id : HandlerId}
    {h : TargetHandler} (hid : r.handler? id = some h) (hopen : h.closed = false)
    (hfamily : h.encoder.family = h.factory) {resource : Resource} {rule : Option Rule}
    {config config' : ScrapeConfig} (henc : h.encode? resource rule = some config)
    (hheld : (r.handle id resource rule false).encoding id resource.targetName = some config') :
    config = config' := by
  rw [encoding_handle hc hid hopen hfamily, henc, Option.some_or] at hheld
  split_ifs at hheld with hfree
  · exact Option.some.inj hheld
  · -- it has held the target before, so nobody else in its registry owns it
    have hreg := registryOf?_eq_some_iff.mpr ⟨h, hid, rfl⟩
    have howner := (hc h.registry resource.targetName id).mpr
      ⟨hreg, holds_iff_encoding.mpr ⟨config', hheld⟩⟩
    exact absurd (fun i hi => Option.some.inj (hi.symm.trans howner)) hfree

/-! ## What no call changes -/

/-- What every call keeps: consistency, all of the handlers but their targets, and that closed
    handlers without targets have none. -/
structure Keeps (r r' : Roster) : Prop where
  consistent : r'.Consistent
  blank : ∀ id, (r'.handler? id).map (·.blank) = (r.handler? id).map (·.blank)
  closed : ∀ id h, r.handler? id = some h → h.closed = true → h.entries = ∅ →
    r'.handler? id = some h

theorem Keeps.refl {r : Roster} (hc : r.Consistent) : r.Keeps r :=
  ⟨hc, fun _ => rfl, fun _ _ hid _ _ => hid⟩

theorem Keeps.trans {r r' r'' : Roster} (hk : r.Keeps r') (hk' : r'.Keeps r'') : r.Keeps r'' :=
  ⟨hk'.consistent, fun id => (hk'.blank id).trans (hk.blank id), fun id h hid hclosed hempty =>
    hk'.closed id h (hk.closed id h hid hclosed hempty) hclosed hempty⟩

theorem Keeps.registryOf?_eq {r r' : Roster} (hk : r.Keeps r') (id : HandlerId) :
    r'.registryOf? id = r.registryOf? id := by
  have hb := congrArg (Option.map (·.registry)) (hk.blank id)
  rw [Option.map_map, Option.map_map] at hb
  exact hb

theorem Keeps.factory?_eq {r r' : Roster} (hk : r.Keeps r') (id : HandlerId) :
    r'.factory? id = r.factory? id := by
  have hb := congrArg (Option.map (·.factory)) (hk.blank id)
  rw [Option.map_map, Option.map_map] at hb
  exact hb

theorem Advance.keeps {r r' : Roster} (hc : r.Consistent) (ha : Advance r r') : Keeps r r' := by
  cases ha with
  | note log mishaps => exact ⟨hc, fun _ => rfl, fun _ _ hid _ _ => hid⟩
  | @publish id h config rule resource log hid hopen hfree henc hfamily =>
    refine ⟨hc.commit hid hfree config, fun i => ?_, fun i g hg hclosed _ => ?_⟩
    · show ((r.commit id h resource.targetName config).handler? i).map _ = _
      rw [handler?_commit hid]
      split_ifs with hi
      · rw [hi, hid]
        rfl
      · rfl
    · show (r.commit id h resource.targetName config).handler? i = some g
      rw [handler?_commit hid, if_neg]
      · exact hg
      · rintro rfl
        rw [hid] at hg
        cases hg
        rw [hopen] at hclosed
        cases hclosed

theorem without_of_entries_eq_empty {h : TargetHandler} (he : h.entries = ∅) (p : String → Bool) :
    h.without p = h := by
  have hf : h.entries.filter (fun target _ => !p target) = h.entries := by
    rw [he]
    rfl
  rw [TargetHandler.without, hf]

theorem Retreat.keeps {r r' : Roster} (hc : r.Consistent) (ha : Retreat r r') : Keeps r r' := by
  cases ha with
  | note log => exact ⟨hc, fun _ => rfl, fun _ _ hid _ _ => hid⟩
  | dismiss id p log =>
    refine ⟨hc.dismiss id p, fun i => ?_, fun i g hg _ hempty => ?_⟩
    · show ((r.dismiss id p).handler? i).map _ = _
      rw [handler?_dismiss hc]
      split_ifs with hi
      · rw [Option.map_map, hi]
        rfl
      · rfl
    · show (r.dismiss id p).handler? i = some g
      rw [handler?_dismiss hc]
      split_ifs with hi
      · rw [← hi, hg, Option.map_some, without_of_entries_eq_empty hempty]
      · exact hg

theorem handle_keeps {r : Roster} (hc : r.Consistent) (id : HandlerId) (resource : Resource)
    (rule : Option Rule) (confirmed : Bool) :
    Keeps r (r.handle id resource rule confirmed) := by
  rcases handle_cases hc id resource rule confirmed with ha | ⟨-, ha⟩
  · exact ha.keeps hc
  · exact ha.keeps hc

theorem delete_keeps {r : Roster} (hc : r.Consistent) (id : HandlerId) (target : String) :
    Keeps r (r.delete id target) :=
  (delete_retreat r id target).keeps hc

end Roster

end ScrapeDiscovery

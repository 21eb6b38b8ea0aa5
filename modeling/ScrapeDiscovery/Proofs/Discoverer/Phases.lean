import Mathlib.Logic.Relation
import ScrapeDiscovery.Proofs.Discoverer.Runs

/-!
# The two phases of an operation

Whatever a discoverer is asked to do, it first withdraws and then publishes:
handlers are added, closed and made to give up targets before any handler
publishes one. An invariant of rosters that both kinds of steps keep is therefore
kept by every operation, and one that only the steps of one phase keep can be
followed through that phase.

Results:
* `Sound.step_phases`: the two phases of every operation.
* `Roster.Withdrawal.consistent`: the steps of the first phase keep a roster consistent.
* `Roster.Withdrawals.keep`, `Roster.Advances.keep`: invariants along a phase.
* `Roster.Withdrawals.encoding`: nothing is published during the first phase.
-/

namespace ScrapeDiscovery

open Relation

/-- Whether a call brings a target up to date under a rule. -/
def HandlerCall.IsHandle : HandlerCall → Prop
  | .handle .. => True
  | _ => False

/-- Whether a call brings the target of the API server up to date under a rule. -/
def HandlerCall.IsForApiServer (c : HandlerCall) : Prop :=
  ∃ id rule, c = .handle id .apiServer rule

theorem HandlerCall.IsForApiServer.isHandle {c : HandlerCall} (hc : c.IsForApiServer) :
    c.IsHandle := by
  obtain ⟨id, rule, rfl⟩ := hc
  trivial

namespace Roster

/-! ## Phases -/

/-- A step of the first phase: targets are given up, a handler is closed to new ones, or one
    without targets is added. -/
inductive Withdrawal (r : Roster) : Roster → Prop
  | retreat {r' : Roster} (h : Retreat r r') : Withdrawal r r'
  | shut (id : HandlerId) : Withdrawal r (r.shut id)
  | add {h : TargetHandler} (hempty : h.entries = ∅) : Withdrawal r (r.add h)

/-- Steps of the first phase. -/
abbrev Withdrawals : Roster → Roster → Prop := ReflTransGen Withdrawal

/-- Steps of the second phase. -/
abbrev Advances : Roster → Roster → Prop := ReflTransGen Advance

/-- First withdrawing, then publishing. -/
def Phases (r r' : Roster) : Prop := ∃ mid, Withdrawals r mid ∧ Advances mid r'

theorem Withdrawal.consistent {r r' : Roster} (hc : r.Consistent) (hw : Withdrawal r r') :
    r'.Consistent := by
  cases hw with
  | retreat h => exact (h.keeps hc).consistent
  | shut id => exact hc.shut id
  | add hempty => exact hc.add hempty

/-- What each withdrawal from a consistent roster keeps, the first phase keeps. -/
theorem Withdrawals.keep {P : Roster → Prop}
    (hP : ∀ r r', r.Consistent → P r → Withdrawal r r' → P r') {r r' : Roster}
    (hc : r.Consistent) (hr : P r) (hw : Withdrawals r r') : r'.Consistent ∧ P r' := by
  induction hw with
  | refl => exact ⟨hc, hr⟩
  | tail _ hstep ih => exact ⟨hstep.consistent ih.1, hP _ _ ih.1 ih.2 hstep⟩

/-- What each advance from a consistent roster keeps, the second phase keeps. -/
theorem Advances.keep {P : Roster → Prop}
    (hP : ∀ r r', r.Consistent → P r → Advance r r' → P r') {r r' : Roster}
    (hc : r.Consistent) (hr : P r) (ha : Advances r r') : r'.Consistent ∧ P r' := by
  induction ha with
  | refl => exact ⟨hc, hr⟩
  | tail _ hstep ih => exact ⟨(hstep.keeps ih.1).consistent, hP _ _ ih.1 ih.2 hstep⟩

/-- Whoever holds a target after a withdrawal has held it before. -/
theorem Withdrawal.encoding {r r' : Roster} (hc : r.Consistent) (hw : Withdrawal r r')
    {i : HandlerId} {target : String} {config : ScrapeConfig}
    (he : r'.encoding i target = some config) :
    r.encoding i target = some config ∧ r'.factory? i = r.factory? i := by
  cases hw with
  | retreat h =>
    refine ⟨?_, (h.keeps hc).factory?_eq i⟩
    cases h with
    | note log => exact he
    | dismiss id p log =>
      change (r.dismiss id p).encoding i target = some config at he
      rw [encoding_dismiss] at he
      split_ifs at he
      exact he
  | shut id =>
    rw [encoding_shut] at he
    exact ⟨he, factory?_shut r id i⟩
  | @add h hempty =>
    rw [encoding_add_empty r hempty] at he
    have hne := ne_nextId_of_holds (holds_iff_encoding.mpr ⟨config, he⟩)
    exact ⟨he, factory?_add_of_ne r h hne⟩

theorem Withdrawals.encoding {r r' : Roster} (hc : r.Consistent) (hw : Withdrawals r r')
    {i : HandlerId} {target : String} {config : ScrapeConfig}
    (he : r'.encoding i target = some config) : r.encoding i target = some config := by
  induction hw with
  | refl => exact he
  | tail hw hstep ih =>
    have hmid := Withdrawals.keep (P := fun _ => True) (fun _ _ _ _ _ => trivial) hc trivial hw
    exact ih (hstep.encoding hmid.1 he).1

/-- A target that has an owner has one at the end of the second phase. -/
theorem Advances.isSome_owner? {r r' : Roster} (ha : Advances r r') {registry target : String}
    (hr : (r.owner? registry target).isSome = true) :
    (r'.owner? registry target).isSome = true := by
  induction ha with
  | refl => exact hr
  | tail _ hstep ih =>
    cases hstep with
    | note log mishaps => exact ih
    | @publish id h config rule resource log hid hopen hfree henc hfamily =>
      refine (congrArg Option.isSome (owner?_commit _ id h resource.targetName config registry
        target)).trans ?_
      split_ifs
      · rfl
      · exact ih

theorem close_withdrawals (r : Roster) (id : HandlerId) : Withdrawals r (r.close id) :=
  (ReflTransGen.single (.shut id)).tail (.retreat (dismiss_retreat _ id _))

theorem Withdrawals.phases {r r' : Roster} (hw : Withdrawals r r') : Phases r r' :=
  ⟨r', hw, .refl⟩

theorem Advances.phases {r r' : Roster} (ha : Advances r r') : Phases r r' := ⟨r, .refl, ha⟩

end Roster

open Roster

namespace Discoverer

/-! ## Withdrawing -/

theorem teardown_withdrawals (d : Discoverer) (name : String) :
    Withdrawals d.roster (d.teardown name).roster := by
  cases hp : d.pipelines.get? name with
  | none =>
    rw [teardown_of_get?_eq_none hp]
  | some p =>
    rw [teardown_of_get? hp]
    exact close_withdrawals d.roster p.handler

theorem teardownAll_withdrawals (d : Discoverer) (names : List String) :
    Withdrawals d.roster (names.foldl teardown d).roster := by
  induction names generalizing d with
  | nil => exact .refl
  | cons name names ih => exact (d.teardown_withdrawals name).trans (ih _)

theorem install_withdrawals {d d' : Discoverer} {rule : Rule} {p : Pipeline}
    (hi : d.install rule = .ok (p, d')) : Withdrawals d.roster d'.roster := by
  obtain ⟨-, -, ⟨old, -, -, -, rfl⟩ | ⟨h, hm, hrec⟩⟩ := install_eq_ok hi
  · exact .refl
  · obtain ⟨-, -, -, -, hempty, -⟩ := makeHandler_eq_ok hm
    have hadd : Withdrawals d.roster (d.roster.add h) := .single (.add hempty)
    have hd : d' = (d.recreate rule p.filter h).2 := by rw [hrec]
    rw [hd]
    exact hadd.trans (teardown_withdrawals { d with roster := d.roster.add h } rule.name)

theorem installAll_withdrawals (i : Installation) (rules : List Rule) :
    Withdrawals i.discoverer.roster (rules.foldl Installation.step i).discoverer.roster := by
  induction rules generalizing i with
  | nil => exact .refl
  | cons rule rules ih =>
    refine ReflTransGen.trans ?_ (ih (i.step rule))
    unfold Installation.step
    split
    · next hi => exact install_withdrawals hi
    · exact .refl

theorem performAll_deletes_withdrawals (d : Discoverer) (ids : List HandlerId)
    (target : String) :
    Withdrawals d.roster (d.performAll (ids.map (.delete · target))).roster := by
  induction ids generalizing d with
  | nil => exact .refl
  | cons id ids ih =>
    exact .head (.retreat (delete_retreat d.roster id target)) (ih (d.perform (.delete id target)))

theorem deleteResource_withdrawals (d : Discoverer) (resource : Resource) :
    Withdrawals d.roster (d.deleteResource resource).roster := by
  have hmap : d.handlers.map (HandlerCall.delete · resource.targetName) ++
      [.delete d.annotated resource.targetName] =
        d.installed.map (.delete · resource.targetName) := by
    simp [installed]
  rw [deleteResource, hmap]
  exact d.performAll_deletes_withdrawals _ _

theorem deleteResources_withdrawals (d : Discoverer) (resources : List Resource) :
    Withdrawals d.roster (resources.foldl deleteResource d).roster := by
  induction resources generalizing d with
  | nil => exact .refl
  | cons r rs ih => exact (d.deleteResource_withdrawals r).trans (ih _)

/-! ## Publishing -/

theorem Sound.performAll_advances {d : Discoverer} (hs : d.Sound) {calls : List HandlerCall}
    (hcalls : ∀ c ∈ calls, c.IsHandle) : Advances d.roster (d.performAll calls).roster := by
  induction calls generalizing d with
  | nil => exact .refl
  | cons c cs ih =>
    have hrest := ih (hs.perform c) fun c' hc' => hcalls c' (List.mem_cons_of_mem _ hc')
    have hc := hcalls c List.mem_cons_self
    cases c with
    | handle id resource rule =>
      exact .head (handle_advance hs.consistent id resource (some rule)) hrest
    | delete id target => exact hc.elim
    | annotate resource => exact hc.elim

theorem isForApiServer_of_mem_apiServerCalls {p : Pipeline} {c : HandlerCall}
    (hc : c ∈ apiServerCalls p) : c.IsForApiServer := by
  unfold apiServerCalls at hc
  split at hc
  · exact ⟨p.handler, forApiServer p.rule, List.mem_singleton.mp hc⟩
  · cases hc

theorem Sound.performLeading_advances {d : Discoverer} (hs : d.Sound) (leading : Bool)
    {calls : List HandlerCall} (hcalls : ∀ c ∈ calls, c.IsHandle) :
    Advances d.roster (d.performLeading leading calls).roster := by
  unfold Discoverer.performLeading
  split
  · exact hs.performAll_advances hcalls
  · exact .refl

theorem isForApiServer_of_mem_installation {i : Installation}
    (hi : ∀ c ∈ i.calls, c.IsForApiServer) (rules : List Rule) :
    ∀ c ∈ (rules.foldl Installation.step i).calls, c.IsForApiServer := by
  induction rules generalizing i with
  | nil => exact hi
  | cons rule rules ih =>
    refine ih ?_
    unfold Installation.step
    split
    · intro c hc
      rcases List.mem_append.mp hc with hc | hc
      · exact hi c hc
      · exact isForApiServer_of_mem_apiServerCalls hc
    · exact hi

/-- A resource that asks for itself is published or given up. -/
theorem Sound.annotate_phases {d : Discoverer} (hs : d.Sound) (resource : Resource) :
    Phases d.roster (d.annotate resource).roster := by
  unfold annotate
  split
  · exact Withdrawals.phases .refl
  split
  · rcases handle_cases hs.consistent d.annotated resource none (!d.policy.isExcluded resource)
      with ha | ⟨-, hr⟩
    · exact Advances.phases (.single ha)
    · exact Withdrawals.phases (.single (.retreat hr))
  · exact Withdrawals.phases (.single (.retreat (delete_retreat _ _ _)))

/-! ## Operations -/

theorem Sound.handleAll_phases {d : Discoverer} (hs : d.Sound) (leading : Bool)
    (rules : List Rule) : Phases d.roster (d.handleAll leading rules).2.roster := by
  let i : Installation := { discoverer := (d.missing rules).foldl Discoverer.teardown d }
  have hi : (rules.foldl Installation.step i).discoverer.Sound :=
    Sound.installAll (hs.teardownAll (d.missing rules)) rules
  have hcalls : ∀ c ∈ (rules.foldl Installation.step i).calls, c.IsForApiServer :=
    isForApiServer_of_mem_installation (fun _ h => absurd h List.not_mem_nil) rules
  refine ⟨(rules.foldl Installation.step i).discoverer.roster, ?_, ?_⟩
  · exact (d.teardownAll_withdrawals _).trans (installAll_withdrawals i rules)
  · exact (hi.publishCount.performLeading_advances leading
      fun c hc => (hcalls c hc).isHandle).tail (.note _ _)

theorem Sound.handle_phases {d d' : Discoverer} (hs : d.Sound) {leading : Bool} {rule : Rule}
    (hh : d.handle leading rule = .ok d') : Phases d.roster d'.roster := by
  simp only [Discoverer.handle, bind_eq_ok_iff] at hh
  obtain ⟨⟨p, d₁⟩, hi, hh⟩ := hh
  cases hh
  exact ⟨d₁.roster, install_withdrawals hi,
    (hs.install hi).publishCount.performLeading_advances leading
      fun _ hc => (isForApiServer_of_mem_apiServerCalls hc).isHandle⟩

theorem performAll_append (d : Discoverer) (xs ys : List HandlerCall) :
    d.performAll (xs ++ ys) = (d.performAll xs).performAll ys :=
  List.foldl_append

theorem performAll_calls (d : Discoverer) (resource : Resource) :
    d.performAll (d.calls resource) =
      let given := d.performAll ((d.strays resource).map (.delete · resource.targetName))
      if (d.claims resource).isEmpty then given.annotate resource
      else
        (given.perform (.delete d.annotated resource.targetName)).performAll
          ((d.claims resource).map fun p => .handle p.handler resource p.rule) := by
  rw [calls, performAll_append]
  split <;> rfl

theorem Sound.discover_phases {d : Discoverer} (hs : d.Sound) (leading : Bool)
    (resource : Resource) : Phases d.roster (d.discover leading resource).roster := by
  unfold Discoverer.discover
  split
  · exact Withdrawals.phases .refl
  rw [performAll_calls]
  have hgiven := d.performAll_deletes_withdrawals (d.strays resource) resource.targetName
  have hs' := hs.performAll ((d.strays resource).map (.delete · resource.targetName))
  dsimp only
  split
  · obtain ⟨mid, hw, ha⟩ := hs'.annotate_phases resource
    exact ⟨mid, hgiven.trans hw, ha⟩
  · refine ⟨_, hgiven.tail (.retreat (delete_retreat _ d.annotated resource.targetName)), ?_⟩
    refine (hs'.perform (.delete d.annotated resource.targetName)).performAll_advances ?_
    intro c hc
    obtain ⟨p, -, rfl⟩ := List.mem_map.mp hc
    trivial

theorem setAnnotationPolicy_withdrawals (d : Discoverer) (excludes : List Selectors)
    (disabled : Bool) :
    Withdrawals d.roster (d.setAnnotationPolicy excludes disabled).roster := by
  unfold setAnnotationPolicy
  split
  · exact .single (.retreat (dismiss_retreat _ _ _))
  · exact .refl

theorem deleteAll_withdrawals (d : Discoverer) : Withdrawals d.roster d.deleteAll.roster := by
  have hall : Withdrawals d.roster (d.handleAll false []).2.roster :=
    (d.teardownAll_withdrawals (d.missing [])).tail (.retreat (.note _))
  exact hall.tail (.retreat (dismiss_retreat _ _ _))

/-- Every operation withdraws first and publishes afterwards. -/
theorem Sound.step_phases {d : Discoverer} (hs : d.Sound) (op : Operation) :
    Phases d.roster (d.step op).roster := by
  cases op with
  | handleAll leading rules => exact hs.handleAll_phases leading rules
  | handle leading rule =>
    simp only [Discoverer.step]
    cases hh : d.handle leading rule with
    | error _ => exact Withdrawals.phases .refl
    | ok d' => exact hs.handle_phases hh
  | delete name => exact Withdrawals.phases (d.teardown_withdrawals name)
  | discover leading resource => exact hs.discover_phases leading resource
  | deleteResource resource => exact Withdrawals.phases (d.deleteResource_withdrawals resource)
  | deleteClusterScoped resources =>
    exact Withdrawals.phases ((d.deleteResources_withdrawals resources).trans
      (deleteResource_withdrawals _ _))
  | setAnnotationPolicy excludes disabled =>
    exact Withdrawals.phases (d.setAnnotationPolicy_withdrawals excludes disabled)
  | refreshApiServer leading =>
    refine Advances.phases (hs.performLeading_advances leading fun c hc => ?_)
    obtain ⟨p, -, hc⟩ := List.mem_flatMap.mp hc
    exact (isForApiServer_of_mem_apiServerCalls hc).isHandle
  | deleteAll => exact Withdrawals.phases d.deleteAll_withdrawals

end Discoverer

end ScrapeDiscovery

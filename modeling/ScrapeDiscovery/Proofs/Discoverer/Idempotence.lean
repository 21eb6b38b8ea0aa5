import ScrapeDiscovery.Proofs.Discoverer.Asking
import ScrapeDiscovery.Proofs.Discoverer.Shelves

/-!
# Taking a resource in twice

When a resource has been taken in, everybody is done with it: no rule without a claim
holds its target any longer, and whoever is asked for it again either does not own it,
holds just what it would encode, or finds the resource faulty again. Only faulty
resources are counted each time. A rule that comes before the owner does not get the
target the second time either, since it would have got it the first time.

Results:
* `Roster.handle_of_settled`: a handler that is done with a resource.
* `performAll_of_settled`: calls about which everybody is done.
* `Sound.settled_claim`, `Sound.settled_annotate`: whoever is asked again is done.
* `Sound.discover_again`, `discover_discover`: taking a resource in twice, in every state of a run.
-/

namespace ScrapeDiscovery

namespace Roster

/-- The same roster with more resources counted that could not be encoded. -/
def countFaults (r : Roster) (k : Nat) : Roster :=
  { r with mishaps := { r.mishaps with encoding := r.mishaps.encoding + k } }

/-- A handler has nothing left to do about a resource: somebody else owns the target, the resource
    is faulty, or the handler holds what it would encode. -/
def Settled (r : Roster) (id : HandlerId) (h : TargetHandler) (resource : Resource)
    (rule : Option Rule) : Prop :=
  (∃ i, r.owner? h.registry resource.targetName = some i ∧ i ≠ id) ∨
    match h.encoder.encode resource.ip resource.kind resource.object rule with
    | .ok (some config) => r.encoding id resource.targetName = some config
    | .ok none => h.useAnnotations = false ∨ r.encoding id resource.targetName = none
    | .error _ => True

theorem handle_of_settled {r : Roster} (hc : r.Consistent) {id : HandlerId} {h : TargetHandler}
    (hid : r.handler? id = some h) {resource : Resource} {rule : Option Rule}
    (hsettled : r.Settled id h resource rule) (confirmed : Bool) :
    ∃ k, r.handle id resource rule confirmed = r.countFaults k := by
  rw [handle_eq hc hid]
  by_cases hforeign : (r.owner? h.registry resource.targetName).any (· ≠ id) = true
  · rw [if_pos hforeign]
    exact ⟨0, rfl⟩
  rw [if_neg hforeign]
  have hmine := hsettled.resolve_left fun ⟨i, hi, hne⟩ =>
    hforeign ((Option.any_eq_true _ _).mpr ⟨i, hi, decide_eq_true hne⟩)
  cases henc : h.encoder.encode resource.ip resource.kind resource.object rule with
  | error fault => exact ⟨1, rfl⟩
  | ok config =>
    rw [henc] at hmine
    cases config with
    | some config =>
      dsimp only at hmine ⊢
      rw [renew_eq hid henc, if_pos hmine]
      exact ⟨0, rfl⟩
    | none =>
      have hkeeps : ((r.encoding id resource.targetName).isSome && h.useAnnotations &&
          confirmed) = false := by
        rcases hmine with hrule | hnone
        · rw [hrule, Bool.and_false, Bool.false_and]
        · rw [hnone, Option.isSome_none, Bool.false_and, Bool.false_and]
      dsimp only
      rw [hkeeps]
      exact ⟨0, rfl⟩

theorem delete_of_not_holds {r : Roster} {id : HandlerId} {target : String}
    (hh : r.holds id target = false) : r.delete id target = r := by
  rw [delete, hh]
  rfl

end Roster

namespace Discoverer

open Roster

variable {d : Discoverer}

/-- The same state with more resources counted that could not be encoded. -/
def countFaults (d : Discoverer) (k : Nat) : Discoverer :=
  { d with roster := d.roster.countFaults k }

theorem countFaults_countFaults (d : Discoverer) (k l : Nat) :
    (d.countFaults k).countFaults l = d.countFaults (k + l) := by
  simp only [countFaults, Roster.countFaults, Nat.add_assoc]

/-! ## Calls about which everybody is done -/

/-- However many resources were faulty so far, a call at most counts one more. -/
def Settled (d : Discoverer) (c : HandlerCall) : Prop :=
  ∀ n, ∃ k, (d.countFaults n).perform c = d.countFaults (n + k)

theorem settled_handle (hc : d.roster.Consistent) {id : HandlerId} {h : TargetHandler}
    (hid : d.roster.handler? id = some h) {resource : Resource} {rule : Rule}
    (hsettled : d.roster.Settled id h resource (some rule)) :
    d.Settled (.handle id resource rule) := by
  intro n
  -- what was counted before shows in none of the views
  obtain ⟨k, hk⟩ := handle_of_settled (r := d.roster.countFaults n) hc hid hsettled false
  refine ⟨k, ?_⟩
  rw [← countFaults_countFaults]
  exact congrArg (fun r => { d with roster := r }) hk

theorem settled_delete {id : HandlerId} {target : String}
    (hh : d.roster.holds id target = false) : d.Settled (.delete id target) := fun n =>
  ⟨0, congrArg (fun r => { d with roster := r })
    (delete_of_not_holds (r := d.roster.countFaults n) hh)⟩

theorem performAll_of_settled {calls : List HandlerCall} (hcalls : ∀ c ∈ calls, d.Settled c)
    (n : Nat) : ∃ k, (d.countFaults n).performAll calls = d.countFaults (n + k) := by
  induction calls generalizing n with
  | nil => exact ⟨0, rfl⟩
  | cons c cs ih =>
    obtain ⟨k, hk⟩ := hcalls c List.mem_cons_self n
    obtain ⟨l, hl⟩ := ih (fun c' hc' => hcalls c' (List.mem_cons_of_mem _ hc')) (n + k)
    refine ⟨k + l, ?_⟩
    rw [← Nat.add_assoc, ← hl, ← hk]
    rfl

/-! ## After a resource was taken in -/

theorem Sound.strays_discover (hs : d.Sound) {leading : Bool} {resource : Resource}
    (hleading : resource.kind.isClusterScoped = true → leading = true) :
    (d.discover leading resource).strays resource = [] := by
  rw [strays, List.map_eq_nil_iff, List.filter_eq_nil_iff, pipelines_discover]
  intro p hp hstray
  obtain ⟨hmatch, hh⟩ := Bool.and_eq_true_iff.mp hstray
  rw [hs.not_holds_discover hleading hp ((Bool.not_eq_true' _).mp hmatch)] at hh
  cases hh

theorem claims_discover (d : Discoverer) (leading : Bool) (resource : Resource) :
    (d.discover leading resource).claims resource = d.claims resource := by
  rw [claims, pipelines_discover, claims]

/-- A rule that claims a resource is done with it: it lost the target to the owner, it is the owner
    and holds what it encodes, or it has no encoding, since otherwise there would be an owner. -/
theorem Sound.settled_claim (hs : d.Sound) {leading : Bool} {resource : Resource}
    (hleading : resource.kind.isClusterScoped = true → leading = true) {p : Pipeline}
    (hp : p ∈ d.claims resource) :
    (d.discover leading resource).Settled (.handle p.handler resource p.rule) := by
  have hs' := hs.discover leading resource
  have hpipeline := (mem_claims_iff.mp hp).1
  obtain ⟨k, hk⟩ := KeyMap.mem_values_iff.mp hpipeline
  obtain ⟨h, hid, hm⟩ := hs'.made k p (by rwa [pipelines_discover])
  obtain ⟨hregistry, -, -, hrule, -⟩ := makeHandler_eq_ok hm
  replace hregistry : h.registry = registryName p.rule.pluginType := hregistry
  replace hrule : h.useAnnotations = false := hrule
  have hencode : h.encode? resource (some p.rule) = d.encode? p resource := by
    rw [← encode?_eq hid, encode?_of_keeps (hs.discover_keeps leading resource)]
  have howner := hs.owner?_discover hleading (List.ne_nil_of_mem hp)
    (registryName p.rule.pluginType)
  have hheld := hs.encoding_discover hleading hpipeline
  refine settled_handle hs'.consistent hid ?_
  rw [Roster.Settled, hregistry, howner]
  by_cases hforeign : ∃ q, d.heir resource (registryName p.rule.pluginType) = some q ∧ q ≠ p
  · obtain ⟨q, hq, hne⟩ := hforeign
    refine Or.inl ⟨q.handler, congrArg (Option.map (·.handler)) hq, fun he => hne ?_⟩
    exact hs.eq_of_handler_eq (mem_rivals.mp (mem_rivals_of_heir hq)).1 hpipeline he
  right
  cases henc : h.encoder.encode resource.ip resource.kind resource.object (some p.rule) with
  | error fault => trivial
  | ok config =>
    cases config with
    | none => exact Or.inl hrule
    | some config =>
      have hsome : d.encode? p resource = some config := by
        rw [← hencode, TargetHandler.encode?, henc]
        rfl
      have hheir : d.heir resource (registryName p.rule.pluginType) = some p := by
        cases hq : d.heir resource (registryName p.rule.pluginType) with
        | some q => exact congrArg some (not_not.mp fun hne => hforeign ⟨q, hq, hne⟩)
        | none =>
          have hrival : p ∈ d.rivals resource (registryName p.rule.pluginType) :=
            mem_rivals.mpr ⟨hpipeline, (mem_claims_iff.mp hp).2, hs.registryOf?_of_mem hpipeline⟩
          have hnone := List.find?_eq_none.mp (Option.or_eq_none_iff.mp hq).2 p hrival
          rw [hsome] at hnone
          exact absurd rfl hnone
      dsimp only
      rw [hheld, if_pos hheir, hsome, Option.some_or]

/-- Where no rule claims a resource, the handler of the targets that ask for themselves is done
    with it. -/
theorem Sound.settled_annotate (hs : d.Sound) {leading : Bool} {resource : Resource}
    (hleading : resource.kind.isClusterScoped = true → leading = true)
    (hunclaimed : d.claims resource = []) :
    (d.discover leading resource).Settled (.annotate resource) := by
  have hs' := hs.discover leading resource
  have hsetup := d.sameSetup_discover leading resource
  intro n
  by_cases hkind : resource.kind = .apiServer
  · exact ⟨0, if_pos hkind⟩
  obtain ⟨annotationPrefix, nodeName, hencoders, -⟩ := hs.setup
  have hheld := hs.encoding_annotated_discover hencoders hkind hleading fun p hp =>
    Bool.eq_false_iff.mpr (List.filter_eq_nil_iff.mp hunclaimed p hp)
  rw [← annotated_discover d leading resource] at hheld
  by_cases hallows : (d.discover leading resource).policy.allows resource = true
  · obtain ⟨h, hid, hb⟩ := hs'.handler?_annotated (hsetup.encoders.trans hencoders)
    have hencoder : h.encoder = .prometheus (.ofPrefix annotationPrefix) nodeName :=
      congrArg TargetHandler.encoder hb
    have hsettled : (d.discover leading resource).roster.Settled
        (d.discover leading resource).annotated h resource none := by
      right
      rw [← hsetup.policy, if_pos hallows, ← hencoder] at hheld
      cases henc : h.encoder.encode resource.ip resource.kind resource.object none with
      | error fault => trivial
      | ok config =>
        rw [henc] at hheld
        cases config with
        | some config => exact hheld
        | none => exact Or.inr hheld
    obtain ⟨k, hk⟩ := handle_of_settled
      (r := (d.discover leading resource).roster.countFaults n) hs'.consistent hid hsettled
      (!(d.discover leading resource).policy.isExcluded resource)
    refine ⟨k, ?_⟩
    rw [← countFaults_countFaults, Discoverer.perform, annotate, if_neg hkind]
    exact (if_pos hallows).trans
      (congrArg (fun r => { d.discover leading resource with roster := r }) hk)
  · have hnone : (d.discover leading resource).roster.holds
        (d.discover leading resource).annotated resource.targetName = false := by
      rw [← hsetup.policy, if_neg hallows] at hheld
      exact congrArg Option.isSome hheld
    obtain ⟨k, hk⟩ := settled_delete hnone n
    refine ⟨k, ?_⟩
    rw [← hk]
    exact (if_neg hkind).trans (if_neg hallows)

/-- Everything that a resource asks for once more is done. -/
theorem Sound.settled_calls (hs : d.Sound) {leading : Bool} {resource : Resource}
    (hleading : resource.kind.isClusterScoped = true → leading = true) :
    ∀ c ∈ (d.discover leading resource).calls resource,
      (d.discover leading resource).Settled c := by
  rw [calls, hs.strays_discover hleading, claims_discover]
  intro c hc
  by_cases hclaims : d.claims resource = []
  · rw [hclaims] at hc
    obtain rfl := List.mem_singleton.mp hc
    exact hs.settled_annotate hleading hclaims
  · rw [if_neg fun hempty => hclaims (List.isEmpty_iff.mp hempty)] at hc
    rcases List.mem_cons.mp hc with rfl | hc
    · refine settled_delete ?_
      rw [annotated_discover]
      exact hs.not_holds_annotated_discover hleading hclaims
    · obtain ⟨p, hp, rfl⟩ := List.mem_map.mp hc
      exact hs.settled_claim hleading hp

/-- Taking a resource in once more at most counts it as faulty again. -/
theorem Sound.discover_again (hs : d.Sound) (leading : Bool) (resource : Resource) :
    ∃ k, (d.discover leading resource).discover leading resource =
      (d.discover leading resource).countFaults k := by
  by_cases hin : (resource.kind.isClusterScoped && !leading) = true
  · exact ⟨0, if_pos hin⟩
  obtain ⟨k, hk⟩ := performAll_of_settled
    (hs.settled_calls (isClusterScoped_imp_of_not hin)) 0
  refine ⟨k, ?_⟩
  rw [Nat.zero_add] at hk
  exact (if_neg hin).trans hk

/-- Whatever happened before, taking a resource in once more, right after it was taken in, changes
    nothing and is neither reported nor told to the catalog, except that it may count as faulty
    again. -/
theorem discover_discover (settings : Settings) (nodeName : String) (ops : List Operation)
    (leading : Bool) (resource : Resource) :
    let d := ((start settings nodeName).run ops).discover leading resource
    ∃ k, d.discover leading resource =
      { d with roster :=
        { d.roster with mishaps :=
          { d.roster.mishaps with encoding := d.roster.mishaps.encoding + k } } } := by
  intro d
  exact (sound_run settings nodeName ops).discover_again leading resource

end Discoverer

end ScrapeDiscovery

import Mathlib.Data.List.Perm.Basic
import ScrapeDiscovery.Proofs.Discoverer.Shelves
import ScrapeDiscovery.Proofs.Roster.Locality

/-!
# Reports about different resources commute

A report about a resource leads to calls about its target alone. Which calls these
are depends on the rules and on who holds this target, and what they do on what is
filed under its name. So reports about two targets can change places, and reports
about pairwise different targets can be taken in any order.

Results:
* `Filed.agreeOn_step`: a report touches nothing that is filed under another name.
* `Filed.agree_step`: what it does depends on its own name only.
* `Filed.step_comm`, `Filed.run_perm`: two reports, and any number of them, in another order.
* `filed_run`: every state of a run.
-/

namespace ScrapeDiscovery

open Roster

/-- The name of the target that a report is about. -/
def Report.target : Report → String
  | .present _ resource => resource.targetName
  | .gone resource => resource.targetName

theorem Roster.Opened.phases {r r' : Roster} (hc : r.Consistent) (ho : r.Opened)
    (hp : Phases r r') : r'.Opened := by
  obtain ⟨mid, hw, ha⟩ := hp
  have hmid : mid.Consistent ∧ mid.Opened := by
    refine Withdrawals.keep (fun r r' hc ho hstep => ?_) hc ho hw
    cases hstep with
    | retreat h =>
      cases h with
      | note log => exact ho
      | dismiss id p log => exact ho.dismiss hc id p
    | shut id => exact ho.shut id
    | @add h hempty => exact ho.add h
  refine (Advances.keep (fun r r' _ ho hstep => ?_) hmid.1 hmid.2 ha).2
  cases hstep with
  | note log mishaps => exact ho
  | publish resource log hid _ _ _ _ => exact ho.commit hid _ _

namespace Discoverer

variable {P : String → Prop} {d e : Discoverer}

/-- The same state with nothing told yet. -/
def afresh (d : Discoverer) : Discoverer := { d with roster := d.roster.afresh }

/-! ## Every run -/

/-- A sound discoverer whose handlers have their registries. -/
structure Filed (d : Discoverer) : Prop where
  sound : d.Sound
  opened : d.roster.Opened

theorem Filed.step (hf : d.Filed) (op : Operation) : (d.step op).Filed :=
  ⟨hf.sound.step op, hf.opened.phases hf.sound.consistent (hf.sound.step_phases op)⟩

theorem Filed.run (hf : d.Filed) (ops : List Operation) : (d.run ops).Filed := by
  induction ops generalizing d with
  | nil => exact hf
  | cons op ops ih => exact ih (hf.step op)

theorem filed_start (settings : Settings) (nodeName : String) :
    (start settings nodeName).Filed := by
  refine ⟨sound_start settings nodeName, Opened.add (fun id registry hid => ?_) _⟩
  cases hid

/-- Every state of a run is filed. -/
theorem filed_run (settings : Settings) (nodeName : String) (ops : List Operation) :
    ((start settings nodeName).run ops).Filed :=
  (filed_start settings nodeName).run ops

/-! ## Agreement -/

/-- Two discoverers that differ in their rosters only, and these agree on the names that `P`
    picks. -/
structure AgreeOn (P : String → Prop) (d e : Discoverer) : Prop where
  roster : d.roster.AgreeOn P e.roster
  rest : e = { d with roster := e.roster }

namespace AgreeOn

theorem refl (d : Discoverer) : d.AgreeOn P d := ⟨.refl d.roster, rfl⟩

theorem symm (h : d.AgreeOn P e) : e.AgreeOn P d := by
  refine ⟨h.roster.symm, ?_⟩
  rw [h.rest]

theorem trans {f : Discoverer} (h : d.AgreeOn P e) (h' : e.AgreeOn P f) : d.AgreeOn P f := by
  refine ⟨h.roster.trans h'.roster, h'.rest.trans ?_⟩
  rw [h.rest]

theorem mono {Q : String → Prop} (h : d.AgreeOn P e) (hQ : ∀ t, Q t → P t) : d.AgreeOn Q e :=
  ⟨h.roster.mono hQ, h.rest⟩

theorem union {Q : String → Prop} (h : d.AgreeOn P e) (h' : d.AgreeOn Q e) :
    d.AgreeOn (fun t => P t ∨ Q t) e :=
  ⟨h.roster.union h'.roster, h.rest⟩

theorem afresh_eq (h : d.AgreeOn (fun _ => True) e) : d.afresh = e.afresh := by
  rw [afresh, afresh, h.roster.afresh_eq, h.rest]

end AgreeOn

/-! ## Calls -/

/-- A call leaves everything alone that is filed under another name than that of its target. -/
theorem Filed.agreeOn_perform (hf : d.Filed) (c : HandlerCall) :
    d.AgreeOn (· ≠ c.target) (d.perform c) := by
  refine ⟨?_, perform_eq d c⟩
  cases c with
  | delete id target => exact agreeOn_delete hf.sound.consistent id target
  | handle id resource rule =>
    exact agreeOn_handle hf.sound.consistent hf.opened id resource (some rule) false
  | annotate resource =>
    show d.roster.AgreeOn (· ≠ resource.targetName) (d.annotate resource).roster
    unfold annotate
    split
    · exact .refl d.roster
    split
    · exact agreeOn_handle hf.sound.consistent hf.opened d.annotated resource none _
    · exact agreeOn_delete hf.sound.consistent d.annotated resource.targetName

theorem Filed.perform (hf : d.Filed) (c : HandlerCall) : (d.perform c).Filed :=
  ⟨hf.sound.perform c, (hf.agreeOn_perform c).roster.isOpened hf.opened⟩

/-- A call does the same on discoverers that agree. -/
theorem Filed.agree_perform (hd : d.Filed) (he : e.Filed) (h : d.AgreeOn P e) (c : HandlerCall) :
    (d.perform c).AgreeOn P (e.perform c) := by
  have hroster : (d.perform c).roster.AgreeOn P (e.perform c).roster := by
    have hc := hd.sound.consistent
    have hc' := he.sound.consistent
    cases c with
    | delete id target => exact h.roster.delete hc hc' id target
    | handle id resource rule =>
      exact h.roster.handle hc hc' hd.opened he.opened id resource (some rule) false
    | annotate resource =>
      show (d.annotate resource).roster.AgreeOn P (e.annotate resource).roster
      have hpolicy : e.policy = d.policy := by rw [h.rest]
      have hannotated : e.annotated = d.annotated := by rw [h.rest]
      unfold annotate
      rw [hpolicy, hannotated]
      split
      · exact h.roster
      split
      · exact h.roster.handle hc hc' hd.opened he.opened d.annotated resource none _
      · exact h.roster.delete hc hc' d.annotated resource.targetName
  refine ⟨hroster, ?_⟩
  rw [perform_eq e c, perform_eq d c, h.rest]

theorem Filed.agreeOn_performAll (hf : d.Filed) {calls : List HandlerCall} {target : String}
    (hcalls : ∀ c ∈ calls, c.target = target) :
    d.AgreeOn (· ≠ target) (d.performAll calls) := by
  induction calls generalizing d with
  | nil => exact .refl d
  | cons c cs ih =>
    have hfirst := hf.agreeOn_perform c
    rw [hcalls c List.mem_cons_self] at hfirst
    exact hfirst.trans (ih (hf.perform c) fun c' hc' => hcalls c' (List.mem_cons_of_mem _ hc'))

theorem Filed.agree_performAll (hd : d.Filed) (he : e.Filed) (h : d.AgreeOn P e)
    (calls : List HandlerCall) : (d.performAll calls).AgreeOn P (e.performAll calls) := by
  induction calls generalizing d e with
  | nil => exact h
  | cons c cs ih => exact ih (hd.perform c) (he.perform c) (hd.agree_perform he h c)

/-! ## Reports -/

/-- The calls that a report leads to. -/
def reportCalls (d : Discoverer) : Report → List HandlerCall
  | .present leading resource =>
    if resource.kind.isClusterScoped && !leading then [] else d.calls resource
  | .gone resource => d.installed.map (.delete · resource.targetName)

theorem step_report (d : Discoverer) (report : Report) :
    d.step report.operation = d.performAll (d.reportCalls report) := by
  cases report with
  | present leading resource =>
    show (if _ then d else d.performAll (d.calls resource)) = d.performAll (if _ then [] else _)
    split <;> rfl
  | gone resource => exact d.deleteResource_eq resource

theorem target_of_mem_reportCalls {report : Report} {c : HandlerCall}
    (hc : c ∈ d.reportCalls report) : c.target = report.target := by
  cases report with
  | present leading resource =>
    rw [reportCalls] at hc
    split at hc
    · cases hc
    · exact target_of_mem_calls hc
  | gone resource =>
    obtain ⟨id, -, rfl⟩ := List.mem_map.mp hc
    rfl

/-- A report leads to the same calls where the same is held of its target. -/
theorem AgreeOn.reportCalls_eq (h : d.AgreeOn P e) {report : Report} (hP : P report.target) :
    e.reportCalls report = d.reportCalls report := by
  have hpipelines : e.pipelines = d.pipelines := by rw [h.rest]
  have hannotated : e.annotated = d.annotated := by rw [h.rest]
  cases report with
  | present leading resource =>
    have hstrays : e.strays resource = d.strays resource := by
      unfold strays
      rw [hpipelines]
      refine congrArg (List.map _) (List.filter_congr fun p _ => ?_)
      rw [h.roster.holds (show P resource.targetName from hP)]
    have hclaims : e.claims resource = d.claims resource := by rw [claims, claims, hpipelines]
    have hcalls : e.calls resource = d.calls resource := by
      rw [calls, calls, hstrays, hclaims, hannotated]
    rw [reportCalls, reportCalls, hcalls]
  | gone resource => simp only [reportCalls, installed, handlers, hpipelines, hannotated]

/-- A report leaves everything alone that is filed under another name than that of its target. -/
theorem Filed.agreeOn_step (hf : d.Filed) (report : Report) :
    d.AgreeOn (· ≠ report.target) (d.step report.operation) := by
  rw [step_report]
  exact hf.agreeOn_performAll fun c hc => target_of_mem_reportCalls hc

/-- A report does the same on discoverers that agree. -/
theorem Filed.agree_step (hd : d.Filed) (he : e.Filed) (h : d.AgreeOn P e) (report : Report) :
    (d.step report.operation).AgreeOn P (e.step report.operation) := by
  by_cases hP : P report.target
  · rw [step_report, step_report, h.reportCalls_eq hP]
    exact hd.agree_performAll he h _
  · have hne : ∀ t, P t → t ≠ report.target := fun t ht heq => hP (heq ▸ ht)
    exact ((hd.agreeOn_step report).mono hne).symm.trans
      (h.trans ((he.agreeOn_step report).mono hne))

/-- Reports about different targets can change places. -/
theorem Filed.step_comm (hf : d.Filed) {a b : Report} (hne : a.target ≠ b.target) :
    ((d.step a.operation).step b.operation).AgreeOn (fun _ => True)
      ((d.step b.operation).step a.operation) := by
  have ha := hf.agreeOn_step a
  have hb := hf.agreeOn_step b
  -- but for the names of the two targets the second report does not see the first
  have hexceptA := (hf.agree_step (hf.step _) ha b).symm.trans
    ((hf.step b.operation).agreeOn_step a)
  have hexceptB := ((hf.step a.operation).agreeOn_step b).symm.trans
    (hf.agree_step (hf.step _) hb a)
  refine (hexceptA.union hexceptB).mono fun t _ => ?_
  by_cases hta : t = a.target
  · exact Or.inr fun htb => hne (hta.symm.trans htb)
  · exact Or.inl hta

theorem Filed.agree_run (hd : d.Filed) (he : e.Filed) (h : d.AgreeOn P e)
    (reports : List Report) :
    (d.run (reports.map Report.operation)).AgreeOn P (e.run (reports.map Report.operation)) := by
  induction reports generalizing d e with
  | nil => exact h
  | cons a reports ih => exact ih (hd.step _) (he.step _) (hd.agree_step he h a)

/-- Reports about pairwise different targets can be taken in any order. -/
theorem Filed.run_perm (hf : d.Filed) {xs ys : List Report} (hperm : xs.Perm ys)
    (hnodup : (xs.map Report.target).Nodup) :
    (d.run (xs.map Report.operation)).AgreeOn (fun _ => True)
      (d.run (ys.map Report.operation)) := by
  induction hperm generalizing d with
  | nil => exact .refl d
  | cons a _ ih => exact ih (hf.step a.operation) (List.nodup_cons.mp hnodup).2
  | swap a b reports =>
    have hne : b.target ≠ a.target := fun he =>
      (List.nodup_cons.mp hnodup).1 (he ▸ List.mem_cons_self)
    exact ((hf.step _).step _).agree_run ((hf.step _).step _) (hf.step_comm hne) reports
  | trans hxy _ ih ih' =>
    exact (ih hf hnodup).trans (ih' hf ((hxy.map Report.target).nodup_iff.mp hnodup))

end Discoverer

end ScrapeDiscovery

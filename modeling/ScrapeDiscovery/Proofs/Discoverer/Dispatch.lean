import ScrapeDiscovery.Proofs.Discoverer.Accounting
import ScrapeDiscovery.Proofs.Discoverer.Exclusion

/-!
# Dispatching while the rules change

Taking a resource in has two parts. First the handlers that it concerns are
selected, with copies of their rules, under the lock of the pipelines. Then they
are called one by one, and nothing keeps the rules from changing before or between
these calls. A `Dispatch` is a discoverer together with the calls still to come of
every resource that is being taken in, and an `Act` is one selection, one call or
one whole operation of anybody else.

A call may reach a handler whose pipeline is gone by then. It is closed, and a
closed handler publishes nothing, whatever it is asked and under whatever rule.
Since numbers are not given out twice, it is not installed again either.

Results:
* `calls_eq_discover`: with nothing in between the parts make up the whole.
* `Phases.knows`, `Sound.fresh_step`: handlers do not disappear, and a newly installed one
  is new.
* `Dispatch.Upright.act`, `Dispatch.Upright.run`: what every act keeps.
* `installed_of_dispatch`: what is held, recorded or live belongs to installed handlers, and who
  was once removed holds nothing and stays removed.
-/

namespace ScrapeDiscovery

open Roster

/-! ## Handlers do not disappear -/

namespace Roster

/-- There is a handler of a number. -/
def Knows (r : Roster) (id : HandlerId) : Prop := (r.handler? id).isSome = true

variable {r r' : Roster} {id : HandlerId}

theorem Keeps.knows (hk : r.Keeps r') (hid : r.Knows id) : r'.Knows id := by
  have hb := congrArg Option.isSome (hk.blank id)
  rw [Option.isSome_map, Option.isSome_map] at hb
  exact hb.trans hid

theorem Withdrawal.knows (hc : r.Consistent) (hw : Withdrawal r r') (hid : r.Knows id) :
    r'.Knows id := by
  cases hw with
  | retreat h => exact (h.keeps hc).knows hid
  | shut i =>
    rw [Knows, Roster.shut, handler?_update]
    split_ifs with hi
    · rw [Option.isSome_map, ← hi]
      exact hid
    · exact hid
  | @add h hempty =>
    rw [Knows, handler?_add]
    split_ifs
    · rfl
    · exact hid

theorem Phases.knows (hc : r.Consistent) (hp : Phases r r') (hid : r.Knows id) : r'.Knows id := by
  obtain ⟨mid, hw, ha⟩ := hp
  obtain ⟨hmid, hknown⟩ :=
    Withdrawals.keep (P := fun r => r.Knows id) (fun _ _ hc hid hw => hw.knows hc hid) hc hid hw
  exact (Advances.keep (fun _ _ hc hid ha => (ha.keeps hc).knows hid) hmid hknown ha).2

end Roster

namespace Discoverer

variable {d d' : Discoverer}

/-- A call withdraws or publishes, whoever is asked. -/
theorem Sound.perform_phases (hs : d.Sound) (c : HandlerCall) :
    Phases d.roster (d.perform c).roster := by
  cases c with
  | delete id target =>
    exact Withdrawals.phases (.single (.retreat (delete_retreat d.roster id target)))
  | handle id resource rule =>
    exact Advances.phases (.single (handle_advance hs.consistent id resource (some rule)))
  | annotate resource => exact hs.annotate_phases resource

/-! ## Newly installed handlers are new -/

/-- Whatever is installed was installed before or has not been there at all. -/
def Fresh (d d' : Discoverer) : Prop :=
  ∀ id ∈ d'.installed, id ∈ d.installed ∨ ¬d.roster.Knows id

theorem fresh_of_eq (hpipelines : d'.pipelines = d.pipelines) (hann : d'.annotated = d.annotated) :
    Fresh d d' := by
  intro id hid
  rw [installed, handlers, hpipelines, hann] at hid
  exact Or.inl hid

theorem Inherits.fresh (h : Inherits d d') (hann : d'.annotated = d.annotated) : Fresh d d' := by
  intro id hid
  rcases mem_installed.mp hid with hid | hid
  · obtain ⟨k, p', hp', rfl⟩ := mem_handlers.mp hid
    rcases h.origin k p' hp' with ⟨p, hp, he, -⟩ | ⟨hnew, -⟩
    · exact Or.inl (mem_installed.mpr (Or.inl (mem_handlers.mpr ⟨k, p, hp, he⟩)))
    · refine Or.inr fun hknown => ?_
      obtain ⟨g, hg⟩ := Option.isSome_iff_exists.mp hknown
      exact absurd (lt_nextId_of_handler? hg) (Nat.not_lt_of_le hnew)
  · exact Or.inl (mem_installed.mpr (Or.inr (hid.trans hann)))

theorem Sound.fresh_handleAll (hs : d.Sound) (leading : Bool) (rules : List Rule) :
    Fresh d (d.handleAll leading rules).2 := by
  have hinherits : Inherits d (d.installation rules).discoverer :=
    (hs.teardownAll_inherits (d.missing rules)).trans
      (Sound.installAll_inherits (i := { discoverer := d.kept rules }) (hs.kept rules) rules)
  have hann := d.annotated_installation rules
  intro id hid
  rw [installed, handlers, pipelines_handleAll, annotated_handleAll, ← hann] at hid
  exact hinherits.fresh hann id hid

theorem Sound.fresh_handle (hs : d.Sound) {leading : Bool} {rule : Rule}
    (hh : d.handle leading rule = .ok d') : Fresh d d' := by
  simp only [Discoverer.handle, bind_eq_ok_iff] at hh
  obtain ⟨⟨p, d₁⟩, hi, hh⟩ := hh
  cases hh
  have hsame := d₁.publishCount.performLeading_pipelines leading (apiServerCalls p)
  intro id hid
  rw [installed, handlers, hsame.1, annotated_performLeading] at hid
  exact (hs.install_inherits hi).fresh (annotated_install hi) id hid

theorem pipelines_deleteResources (d : Discoverer) (resources : List Resource) :
    (resources.foldl deleteResource d).pipelines = d.pipelines := by
  induction resources generalizing d with
  | nil => rfl
  | cons r rs ih => exact (ih (d.deleteResource r)).trans (d.performAll_pipelines _).1

/-- Operations install new handlers only. -/
theorem Sound.fresh_step (hs : d.Sound) (op : Operation) : Fresh d (d.step op) := by
  cases op with
  | handleAll leading rules => exact hs.fresh_handleAll leading rules
  | handle leading rule =>
    simp only [Discoverer.step]
    cases hh : d.handle leading rule with
    | error _ => exact fresh_of_eq rfl rfl
    | ok d' => exact hs.fresh_handle hh
  | delete name => exact (hs.teardown_inherits name).fresh (d.annotated_teardown name)
  | discover leading resource =>
    exact fresh_of_eq (d.pipelines_discover leading resource)
      (d.annotated_discover leading resource)
  | deleteResource resource =>
    exact fresh_of_eq (d.performAll_pipelines _).1 (d.annotated_performAll _)
  | deleteClusterScoped resources =>
    exact fresh_of_eq
      ((performAll_pipelines _ _).1.trans (d.pipelines_deleteResources resources))
      ((annotated_performAll _ _).trans (d.annotated_deleteResources resources))
  | setAnnotationPolicy excludes disabled =>
    refine fresh_of_eq ?_ (d.annotated_setAnnotationPolicy excludes disabled)
    simp only [Discoverer.step, Discoverer.setAnnotationPolicy]
    split <;> rfl
  | refreshApiServer leading =>
    exact fresh_of_eq (d.performLeading_pipelines leading _).1
      (d.annotated_performLeading leading _)
  | deleteAll => exact hs.fresh_handleAll false []

theorem Sound.knows_of_mem_installed (hs : d.Sound) {id : HandlerId} (hid : id ∈ d.installed) :
    d.roster.Knows id := by
  rcases mem_installed.mp hid with hid | rfl
  · obtain ⟨k, p, hp, rfl⟩ := mem_handlers.mp hid
    obtain ⟨h, hid, -⟩ := hs.made k p hp
    exact Option.isSome_iff_exists.mpr ⟨h, hid⟩
  · obtain ⟨annotationPrefix, nodeName, -, hb⟩ := hs.setup
    obtain ⟨h, hid, -⟩ := Option.map_eq_some_iff.mp hb
    exact Option.isSome_iff_exists.mpr ⟨h, hid⟩

/-! ## Resources that are being taken in -/

/-- What is selected for a resource (`Discoverer::discover`): the calls that taking it in will
    consist of. -/
def selected (d : Discoverer) (leading : Bool) (resource : Resource) : List HandlerCall :=
  if resource.kind.isClusterScoped && !leading then [] else d.calls resource

theorem performAll_selected (d : Discoverer) (leading : Bool) (resource : Resource) :
    d.performAll (d.selected leading resource) = d.discover leading resource := by
  unfold selected discover
  split <;> rfl

/-- A discoverer and the resources that are being taken in. -/
structure Dispatch where
  discoverer : Discoverer
  /-- The calls still to come, for one resource after the other. -/
  pending : List (List HandlerCall) := []

/-- What is done next. -/
inductive Act where
  /-- Selects the handlers that a resource concerns. -/
  | select (leading : Bool) (resource : Resource)
  /-- Makes the next call for one of the resources that are being taken in. -/
  | call (n : Nat)
  /-- Carries out an operation as a whole. -/
  | operation (op : Operation)

namespace Dispatch

/-- The state after an act. There may be no call to make. -/
def act (s : Dispatch) : Act → Dispatch
  | .select leading resource =>
    { s with pending := s.pending ++ [s.discoverer.selected leading resource] }
  | .call n =>
    match s.pending[n]? with
    | some (c :: cs) => { discoverer := s.discoverer.perform c, pending := s.pending.set n cs }
    | _ => s
  | .operation op => { s with discoverer := s.discoverer.step op }

/-- The state after acts, carried out one after the other. -/
def run (s : Dispatch) (acts : List Act) : Dispatch := acts.foldl act s

theorem run_append (s : Dispatch) (xs ys : List Act) : s.run (xs ++ ys) = (s.run xs).run ys :=
  List.foldl_append

/-- The calls for the resource that was selected last, with nothing in between. -/
theorem run_replicate_call (d : Discoverer) (pending : List (List HandlerCall))
    (calls : List HandlerCall) :
    run ⟨d, pending ++ [calls]⟩ (List.replicate calls.length (.call pending.length)) =
      ⟨d.performAll calls, pending ++ [[]]⟩ := by
  induction calls generalizing d with
  | nil => rfl
  | cons c cs ih =>
    have hfirst : act ⟨d, pending ++ [c :: cs]⟩ (.call pending.length) =
        ⟨d.perform c, pending ++ [cs]⟩ := by
      simp only [act, List.getElem?_concat_length, List.set_append_right _ _ (Nat.le_refl _),
        Nat.sub_self, List.set_cons_zero]
    rw [List.length_cons, List.replicate_succ]
    exact (congrArg (run · _) hfirst).trans (ih (d.perform c))

/-- Selecting handlers and calling them, with nothing in between, is taking the resource in. -/
theorem calls_eq_discover (s : Dispatch) (leading : Bool) (resource : Resource) :
    s.run (.select leading resource ::
        List.replicate (s.discoverer.selected leading resource).length (.call s.pending.length)) =
      ⟨s.discoverer.discover leading resource, s.pending ++ [[]]⟩ := by
  rw [← performAll_selected]
  exact run_replicate_call s.discoverer s.pending _

/-! ## What every act keeps -/

/-- What every state keeps, whatever calls are still to come. -/
structure Upright (s : Dispatch) : Prop where
  sound : s.discoverer.Sound
  accounted : s.discoverer.roster.Accounted

theorem upright_start (settings : Settings) (nodeName : String) :
    Upright { discoverer := start settings nodeName } :=
  ⟨sound_start settings nodeName, accounted_start settings nodeName⟩

/-- An act changes the discoverer by a call, by an operation or not at all. -/
theorem discoverer_act (s : Dispatch) (a : Act) :
    (s.act a).discoverer = s.discoverer ∨
      (∃ c, (s.act a).discoverer = s.discoverer.perform c) ∨
        ∃ op, (s.act a).discoverer = s.discoverer.step op := by
  cases a with
  | select leading resource => exact Or.inl rfl
  | call n =>
    simp only [act]
    split
    · next c cs hn => exact Or.inr (Or.inl ⟨c, rfl⟩)
    · exact Or.inl rfl
  | operation op => exact Or.inr (Or.inr ⟨op, rfl⟩)

variable {s : Dispatch}

theorem Upright.act (hu : s.Upright) (a : Act) : (s.act a).Upright := by
  rcases s.discoverer_act a with hsame | ⟨c, hcall⟩ | ⟨op, hstep⟩
  · exact ⟨hsame ▸ hu.sound, hsame ▸ hu.accounted⟩
  · exact ⟨hcall ▸ hu.sound.perform c,
      hcall ▸ hu.accounted.phases hu.sound.consistent (hu.sound.perform_phases c)⟩
  · exact ⟨hstep ▸ hu.sound.step op,
      hstep ▸ hu.accounted.phases hu.sound.consistent (hu.sound.step_phases op)⟩

theorem Upright.run (hu : s.Upright) (acts : List Act) : (s.run acts).Upright := by
  induction acts generalizing s with
  | nil => exact hu
  | cons a acts ih => exact ih (hu.act a)

theorem Upright.knows_act (hu : s.Upright) {id : HandlerId} (hid : s.discoverer.roster.Knows id)
    (a : Act) : (s.act a).discoverer.roster.Knows id := by
  rcases s.discoverer_act a with hsame | ⟨c, hcall⟩ | ⟨op, hstep⟩
  · rwa [hsame]
  · rw [hcall]
    exact (hu.sound.perform_keeps c).knows hid
  · rw [hstep]
    exact (hu.sound.step_phases op).knows hu.sound.consistent hid

theorem Upright.fresh_act (hu : s.Upright) (a : Act) :
    Fresh s.discoverer (s.act a).discoverer := by
  rcases s.discoverer_act a with hsame | ⟨c, hcall⟩ | ⟨op, hstep⟩
  · exact fresh_of_eq (congrArg _ hsame) (congrArg _ hsame)
  · rw [hcall, perform_eq]
    exact fresh_of_eq rfl rfl
  · rw [hstep]
    exact hu.sound.fresh_step op

/-- A handler has been there and is not installed any longer. -/
def Removed (s : Dispatch) (id : HandlerId) : Prop :=
  s.discoverer.roster.Knows id ∧ id ∉ s.discoverer.installed

/-- Who was removed stays removed. -/
theorem Upright.removed_run (hu : s.Upright) {id : HandlerId} (hr : s.Removed id)
    (acts : List Act) : (s.run acts).Removed id := by
  induction acts generalizing s with
  | nil => exact hr
  | cons a acts ih =>
    refine ih (hu.act a) ⟨hu.knows_act hr.1 a, fun hin => ?_⟩
    rcases hu.fresh_act a id hin with hin | hnew
    · exact hr.2 hin
    · exact hnew hr.1

theorem Upright.knows_run (hu : s.Upright) {id : HandlerId} (hid : s.discoverer.roster.Knows id)
    (acts : List Act) : (s.run acts).discoverer.roster.Knows id := by
  induction acts generalizing s with
  | nil => exact hid
  | cons a acts ih => exact ih (hu.act a) (hu.knows_act hid a)

/-- A handler that is not installed holds nothing. -/
theorem Upright.not_holds_of_removed (hu : s.Upright) {id : HandlerId} (hr : s.Removed id)
    (target : String) : s.discoverer.roster.holds id target = false := by
  rw [Bool.eq_false_iff]
  exact fun hh => hr.2 (hu.sound.mem_installed_of_holds hh)

/-- However many resources are taken in at a time, and whatever is done before and between the
    calls that were selected for them: whoever holds a target is installed, every recorded owner is
    installed and holds its target, and every live provider is named after a target that an
    installed handler holds. A handler that was installed at some moment and is not installed at a
    later one holds nothing then or ever after and is never installed again. -/
theorem installed_of_dispatch (settings : Settings) (nodeName : String) (acts : List Act) :
    let s := run { discoverer := start settings nodeName }
    let d := (s acts).discoverer
    (∀ id target, d.roster.holds id target = true → id ∈ d.installed) ∧
    (∀ registry target id, d.roster.owner? registry target = some id →
      id ∈ d.installed ∧ d.roster.holds id target = true) ∧
    (∀ k p, d.roster.catalog.get? k = some p → p.name = k ∧
      ∃ id ∈ d.installed, ∃ factory target, d.roster.factory? id = some factory ∧
        d.roster.holds id target = true ∧ k = providerName factory.factoryName target) ∧
    ∀ earlier later, acts = earlier ++ later →
      ∀ id ∈ (s earlier).discoverer.installed, id ∉ d.installed →
        ∀ more, id ∉ (s (acts ++ more)).discoverer.installed ∧
          ∀ target, (s (acts ++ more)).discoverer.roster.holds id target = false := by
  intro s d
  have hstart := upright_start settings nodeName
  have hu : (s acts).Upright := hstart.run acts
  refine ⟨fun id target => hu.sound.mem_installed_of_holds, fun registry target id ho => ?_,
    fun k p hk => ?_, ?_⟩
  · obtain ⟨hid, -, hh⟩ := (hu.sound.owner?_iff registry target id).mp ho
    exact ⟨hid, hh⟩
  · obtain ⟨hname, id, factory, target, hf, hh, hk⟩ := hu.accounted k p hk
    exact ⟨hname, id, hu.sound.mem_installed_of_holds hh, factory, target, hf, hh, hk⟩
  · rintro earlier later rfl id hid hout more
    have hthen : (s earlier).Upright := hstart.run earlier
    have hgone : (s (earlier ++ later)).Removed id := by
      refine ⟨?_, hout⟩
      rw [show s (earlier ++ later) = (s earlier).run later from run_append _ _ _]
      exact hthen.knows_run (hthen.sound.knows_of_mem_installed hid) later
    have hsplit : s (earlier ++ later ++ more) = (s (earlier ++ later)).run more :=
      run_append _ _ _
    have hever := hu.removed_run hgone more
    rw [hsplit]
    exact ⟨hever.2, (hu.run more).not_holds_of_removed hever⟩

/-- A rule is removed after its handler was selected for a pod. The handler is called all the same,
    and nothing is held, recorded or made live by it. -/
example :
    let redis : Rule :=
      { name := "redis", pluginType := "telegraf/redis", selectors := { images := ["redis:*"] } }
    let pod : Resource :=
      { kind := .pod, ip := "10.0.0.1", object := { name := "x", ns := "ns" }
        containers := [{ image := "redis:6", ports := [] }] }
    let s := run { discoverer := start {} "node-1" }
      [.operation (.handle true redis), .select true pod, .operation (.delete "redis"),
        .call 0, .call 0]
    s.pending = [[]] ∧ s.discoverer.targets = [] ∧
      s.discoverer.roster.owner? "telegraf.redis" pod.targetName = none ∧
        s.discoverer.roster.calls = [] := by
  decide +kernel

end Dispatch

end Discoverer

end ScrapeDiscovery

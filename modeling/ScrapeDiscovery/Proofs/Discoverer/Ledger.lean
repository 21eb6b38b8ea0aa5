import Mathlib.Algebra.BigOperators.Group.Finset.Basic
import Mathlib.Data.Multiset.OrderedMonoid
import ScrapeDiscovery.Proofs.Discoverer.Entries
import ScrapeDiscovery.Proofs.Discoverer.Separation
import ScrapeDiscovery.Proofs.Roster.Ledger

/-!
# Which targets the reported changes account for

Where resources come, change and go, every change of a target is reported. But a
handler that is removed, or replaced by one of another type, gives up everything at
once, and so does the one of the targets that ask for themselves when none may ask any
longer. Of these nothing is reported. So the ledger that the events of a run lead to
has what is held and all that went unreported, and it is right exactly if no handler
that was given up held anything.

Results:
* `Sound.told_step`: what an operation reports, and what it does not.
* `Sound.told_run`: the same for a run.
* `replay_log`: which ledger the events of a run lead to, and when it is right.
-/

namespace ScrapeDiscovery.Discoverer

open Roster

variable {d d' d'' : Discoverer}

/-! ## What is held -/

/-- The targets of the installed handlers, each with the name of the factory. -/
def inventory (d : Discoverer) : Holdings := (d.installed.map d.roster.holdingsOf).sum

theorem Sound.holdingsOf_eq_zero (hs : d.Sound) {id : HandlerId} (hid : id ∉ d.installed) :
    d.roster.holdingsOf id = 0 := by
  cases hg : d.roster.handler? id with
  | none => exact holdingsOf_of_handler?_eq_none hg
  | some h =>
    rw [holdingsOf_of_handler? hg, TargetHandler.holdings, (hs.idle id h hg hid).1]
    rfl

theorem Sound.inventory_eq_sum (hs : d.Sound) :
    d.inventory = ∑ id ∈ d.installed.toFinset, d.roster.holdingsOf id :=
  (List.sum_toFinset _ hs.nodup_installed).symm

/-- Only installed handlers hold anything. -/
theorem Sound.inventory_eq_holdings (hs : d.Sound) : d.inventory = d.roster.holdings := by
  rw [hs.inventory_eq_sum, Roster.holdings]
  have hknown : ∀ id, id ∉ Finset.range d.roster.nextId → d.roster.holdingsOf id = 0 := by
    intro id hid
    refine holdingsOf_of_handler?_eq_none (Option.eq_none_iff_forall_ne_some.mpr fun h hg => ?_)
    exact hid (Finset.mem_range.mpr (lt_nextId_of_handler? hg))
  have hleft : d.installed.toFinset ⊆ d.installed.toFinset ∪ Finset.range d.roster.nextId :=
    Finset.subset_union_left
  have hright : Finset.range d.roster.nextId ⊆
      d.installed.toFinset ∪ Finset.range d.roster.nextId := Finset.subset_union_right
  rw [Finset.sum_subset hleft fun id _ hid =>
      hs.holdingsOf_eq_zero fun hin => hid (List.mem_toFinset.mpr hin),
    Finset.sum_subset hright fun id _ hid => hknown id hid]

/-- The name of a target that is shown, with the one of the factory of its configuration. -/
def entryOf (t : TargetSummary) : String × String :=
  (t.name, t.config.family.factoryName)

/-- The inventory is what the targets that are shown amount to. -/
theorem WellFormed.inventory_eq_targets (hw : d.WellFormed) :
    d.inventory = (d.targets.map entryOf : Holdings) := by
  have hof : ∀ rule pluginType id,
      ((d.targetsOf rule pluginType id).map entryOf : Holdings) =
        d.roster.holdingsOf id := by
    intro rule pluginType id
    cases hg : d.roster.handler? id with
    | none =>
      have hempty : d.roster.entries id = ∅ := by simp only [Roster.entries, hg]; rfl
      rw [holdingsOf_of_handler?_eq_none hg, targetsOf, hempty]
      rfl
    | some h =>
      have hentry : ∀ e ∈ h.entries.toList,
          entryOf ⟨e.1, rule, pluginType, e.2⟩ = (e.1, h.factory.factoryName) := by
        rintro ⟨target, config⟩ he
        have henc := (encoding_of_handler? hg target).trans (KeyMap.mem_toList_iff.mp he)
        obtain ⟨family, hf, hfits⟩ := hw id target config henc
        rw [factory?_eq_some_iff.mpr ⟨h, hg, rfl⟩] at hf
        cases hf
        rw [entryOf, hfits.family]
      rw [holdingsOf_of_handler? hg, TargetHandler.holdings, targetsOf, entries_of_handler? hg,
        KeyMap.keys, Multiset.map_coe, List.map_map, List.map_map]
      exact congrArg _ (List.map_congr_left hentry)
  have hrules : ∀ ps : List Pipeline,
      ((ps.flatMap fun p => d.targetsOf p.rule.name p.rule.pluginType p.handler).map
        entryOf : Holdings) = ((ps.map (·.handler)).map d.roster.holdingsOf).sum := by
    intro ps
    induction ps with
    | nil => rfl
    | cons p ps ih =>
      rw [List.flatMap_cons, List.map_append, ← Multiset.coe_add, hof, ih]
      rfl
  rw [inventory, installed, List.map_append, List.sum_append, targets, List.map_append,
    ← Multiset.coe_add, hof, hrules]
  simp [handlers]

/-! ## Calls -/

/-- Everything was reported, and the same handlers are installed. -/
structure Reported (d d' : Discoverer) : Prop where
  installed : d'.installed = d.installed
  told : Told d.roster d'.roster 0

theorem Reported.refl (d : Discoverer) : Reported d d := ⟨rfl, .refl _⟩

theorem Reported.trans (h : Reported d d') (h' : Reported d' d'') : Reported d d'' :=
  ⟨h'.installed.trans h.installed, h.told.trans h'.told⟩

theorem Sound.reported_perform (hs : d.Sound) (c : HandlerCall) : Reported d (d.perform c) := by
  refine ⟨by rw [perform_eq]; rfl, ?_⟩
  cases c with
  | delete id target => exact told_delete hs.consistent id target
  | handle id resource rule => exact told_handle hs.consistent id resource (some rule) false
  | annotate resource =>
    show Told d.roster (d.annotate resource).roster 0
    unfold annotate
    split
    · exact .refl _
    split
    · exact told_handle hs.consistent _ resource none _
    · exact told_delete hs.consistent _ _

theorem Sound.reported_performAll (hs : d.Sound) (calls : List HandlerCall) :
    Reported d (d.performAll calls) := by
  induction calls generalizing d with
  | nil => exact .refl d
  | cons c cs ih => exact (hs.reported_perform c).trans (ih (hs.perform c))

theorem Sound.reported_performLeading (hs : d.Sound) (leading : Bool)
    (calls : List HandlerCall) : Reported d (d.performLeading leading calls) := by
  unfold Discoverer.performLeading
  split
  · exact hs.reported_performAll calls
  · exact .refl d

theorem Sound.reported_deleteClusterScoped (hs : d.Sound) (resources : List Resource) :
    Reported d (d.deleteClusterScoped resources) := by
  have hall : Reported d (resources.foldl Discoverer.deleteResource d) ∧
      (resources.foldl Discoverer.deleteResource d).Sound := by
    induction resources generalizing d with
    | nil => exact ⟨.refl d, hs⟩
    | cons r rs ih =>
      have hrest := ih (hs.deleteResource r)
      exact ⟨(hs.reported_performAll _).trans hrest.1, hrest.2⟩
  exact hall.1.trans (hall.2.reported_performAll _)

/-! ## Removing and installing -/

/-- Nothing was reported, and the handler of the targets that ask for themselves was left alone. -/
structure Quiet (d d' : Discoverer) : Prop where
  annotated : d'.annotated = d.annotated
  encoding : ∀ target, d'.roster.encoding d.annotated target = d.roster.encoding d.annotated target
  log : d'.roster.log = d.roster.log

theorem Quiet.refl (d : Discoverer) : Quiet d d := ⟨rfl, fun _ => rfl, rfl⟩

theorem Quiet.trans (h : Quiet d d') (h' : Quiet d' d'') : Quiet d d'' where
  annotated := h'.annotated.trans h.annotated
  encoding target := by
    have hlast := h'.encoding target
    rw [h.annotated] at hlast
    exact hlast.trans (h.encoding target)
  log := h'.log.trans h.log

theorem Sound.quiet_close (hs : d.Sound) {r : Roster} (hr : r.Consistent)
    (henc : ∀ target, r.encoding d.annotated target = d.roster.encoding d.annotated target)
    (hlog : r.log = d.roster.log) {name : String} {p : Pipeline}
    (hp : d.pipelines.get? name = some p) (pipelines : KeyMap Pipeline) :
    Quiet d { d with pipelines, roster := r.close p.handler } where
  annotated := rfl
  encoding target := by
    have hne : d.annotated ≠ p.handler := fun he => hs.apart name p hp he.symm
    exact (encoding_close_of_ne hr hne target).trans (henc target)
  log := (log_dismiss _ _ _).trans hlog

theorem Sound.quiet_teardown (hs : d.Sound) (name : String) : Quiet d (d.teardown name) := by
  cases hp : d.pipelines.get? name with
  | none =>
    rw [teardown_of_get?_eq_none hp]
    exact .refl d
  | some p =>
    rw [teardown_of_get? hp]
    exact hs.quiet_close hs.consistent (fun _ => rfl) rfl hp _

theorem Sound.quiet_install (hs : d.Sound) {rule : Rule} {p : Pipeline}
    (hi : d.install rule = .ok (p, d')) : Quiet d d' := by
  obtain ⟨-, -, ⟨old, -, -, -, rfl⟩ | ⟨h, hm, hrec⟩⟩ := install_eq_ok hi
  · exact ⟨rfl, fun _ => rfl, rfl⟩
  · obtain ⟨-, -, -, -, hempty, -⟩ := makeHandler_eq_ok hm
    obtain ⟨-, rfl⟩ := Prod.mk.inj hrec
    have henc := encoding_add_empty d.roster hempty d.annotated
    have hlog := log_add d.roster h
    cases hold : d.pipelines.get? rule.name with
    | none =>
      simp only [Discoverer.teardown, hold]
      exact ⟨rfl, henc, hlog⟩
    | some old =>
      simp only [Discoverer.teardown, hold]
      exact hs.quiet_close (hs.consistent.add hempty) henc hlog hold _

theorem Sound.quiet_teardownAll (hs : d.Sound) (names : List String) :
    Quiet d (names.foldl Discoverer.teardown d) := by
  induction names generalizing d with
  | nil => exact .refl d
  | cons name names ih => exact (hs.quiet_teardown name).trans (ih (hs.teardown name))

theorem Sound.quiet_installAll {i : Installation} (hs : i.discoverer.Sound) (rules : List Rule) :
    Quiet i.discoverer (rules.foldl Installation.step i).discoverer := by
  induction rules generalizing i with
  | nil => exact .refl _
  | cons rule rules ih =>
    refine Quiet.trans ?_ (ih (hs.installStep rule))
    unfold Installation.step
    split
    · next hi => exact hs.quiet_install hi
    · exact .refl _

/-- What the handlers held that are not installed any longer. -/
def lost (d d' : Discoverer) : Holdings :=
  ((d.installed.filter (· ∉ d'.installed)).map d.roster.holdingsOf).sum

theorem lost_of_installed_eq (h : d'.installed = d.installed) : lost d d' = 0 := by
  have hnone : d.installed.filter (· ∉ d'.installed) = [] :=
    List.filter_eq_nil_iff.mpr fun id hid => by simpa [h] using hid
  rw [lost, hnone]
  rfl

theorem Sound.lost_eq_sum (hs : d.Sound) (d' : Discoverer) :
    lost d d' =
      ∑ id ∈ d.installed.toFinset with id ∉ d'.installed.toFinset, d.roster.holdingsOf id := by
  rw [lost, ← List.sum_toFinset _ (hs.nodup_installed.filter _), List.toFinset_filter]
  simp

/-- Handlers that stay installed go on holding what they held, and new ones hold nothing. -/
theorem Sound.holdingsOf_of_inherits (hs : d.Sound) (hs' : d'.Sound) (hi : Inherits d d')
    (hq : Quiet d d') {id : HandlerId} (hid : id ∈ d'.installed) :
    d'.roster.holdingsOf id = d.roster.holdingsOf id := by
  have hsame : ∀ factory, d.roster.factory? id = some factory →
      d'.roster.factory? id = some factory →
      (∀ target, d'.roster.encoding id target = d.roster.encoding id target) →
      d'.roster.holdingsOf id = d.roster.holdingsOf id := by
    intro factory hf hf' henc
    obtain ⟨h, hg, rfl⟩ := factory?_eq_some_iff.mp hf
    obtain ⟨h', hg', hfactory⟩ := factory?_eq_some_iff.mp hf'
    have hentries : h'.entries = h.entries := KeyMap.ext_get? fun target => by
      rw [← encoding_of_handler? hg, ← encoding_of_handler? hg', henc]
    rw [holdingsOf_of_handler? hg, holdingsOf_of_handler? hg', TargetHandler.holdings, hentries,
      hfactory, TargetHandler.holdings]
  rcases mem_installed.mp hid with hin | rfl
  · obtain ⟨k, p', hp', rfl⟩ := mem_handlers.mp hin
    rcases hi.origin k p' hp' with ⟨p, hp, he, htype, henc⟩ | ⟨hnew, hnone⟩
    · obtain ⟨factory, hof, hf⟩ := hs.factory?_of_pipeline (KeyMap.mem_values_iff.mpr ⟨k, hp⟩)
      obtain ⟨factory', hof', hf'⟩ :=
        hs'.factory?_of_pipeline (KeyMap.mem_values_iff.mpr ⟨k, hp'⟩)
      rw [htype, hof'] at hof
      cases hof
      exact hsame factory (he ▸ hf) hf' henc
    · have hbefore : d.roster.handler? p'.handler = none :=
        Option.eq_none_iff_forall_ne_some.mpr fun h hg =>
          Nat.not_lt_of_le hnew (lt_nextId_of_handler? hg)
      obtain ⟨h', hg', -⟩ := hs'.made k p' hp'
      have hempty : h'.entries = ∅ := KeyMap.ext_get? fun target =>
        (encoding_of_handler? hg' target).symm.trans (hnone target)
      rw [holdingsOf_of_handler?_eq_none hbefore, holdingsOf_of_handler? hg',
        TargetHandler.holdings, hempty]
      rfl
  · rw [hq.annotated] at hsame ⊢
    exact hsame .prometheus hs.factory?_annotated (hq.annotated ▸ hs'.factory?_annotated)
      hq.encoding

/-- Handlers that are not installed any longer are lost with all that they held. -/
theorem Sound.told_of_inherits (hs : d.Sound) (hs' : d'.Sound) (hi : Inherits d d')
    (hq : Quiet d d') : Told d.roster d'.roster (lost d d') := by
  refine .of_log_eq hq.log ?_
  have hafter : d'.inventory = ∑ id ∈ d'.installed.toFinset, d.roster.holdingsOf id := by
    rw [hs'.inventory_eq_sum]
    exact Finset.sum_congr rfl fun id hid =>
      hs.holdingsOf_of_inherits hs' hi hq (List.mem_toFinset.mp hid)
  have hstay : ∑ id ∈ d'.installed.toFinset, d.roster.holdingsOf id =
      ∑ id ∈ d.installed.toFinset with id ∈ d'.installed.toFinset, d.roster.holdingsOf id := by
    refine (Finset.sum_subset (fun id hid => (Finset.mem_filter.mp hid).2) ?_).symm
    intro id hid hnot
    exact hs.holdingsOf_eq_zero fun hin =>
      hnot (Finset.mem_filter.mpr ⟨List.mem_toFinset.mpr hin, hid⟩)
  rw [← hs.inventory_eq_holdings, ← hs'.inventory_eq_holdings, hafter, hstay, hs.lost_eq_sum,
    hs.inventory_eq_sum, Finset.sum_filter_add_sum_filter_not]

theorem Sound.told_installation (hs : d.Sound) (rules : List Rule) :
    Told d.roster (d.installation rules).discoverer.roster
      (lost d (d.installation rules).discoverer) :=
  hs.told_of_inherits (hs.installation rules)
    ((hs.teardownAll_inherits (d.missing rules)).trans
      (Sound.installAll_inherits (i := { discoverer := d.kept rules }) (hs.kept rules) rules))
    ((hs.quiet_teardownAll (d.missing rules)).trans
      (Sound.quiet_installAll (i := { discoverer := d.kept rules }) (hs.kept rules) rules))

/-! ## Operations -/

/-- Whether the targets that asked for themselves are all given up. -/
def Operation.endsAnnotations : Operation → Bool
  | .setAnnotationPolicy _ disabled => disabled
  | .deleteAll => true
  | _ => false

/-- What is given up in the course of an operation without a report. -/
def unreported (d : Discoverer) (op : Operation) : Holdings :=
  lost d (d.step op) + if op.endsAnnotations then d.roster.holdingsOf d.annotated else 0

theorem Reported.told_step {op : Operation} (h : Reported d (d.step op))
    (hno : op.endsAnnotations = false) :
    Told d.roster (d.step op).roster (d.unreported op) := by
  rw [unreported, lost_of_installed_eq h.installed, hno]
  exact h.told

theorem lost_congr (h : d''.installed = d'.installed) : lost d d'' = lost d d' := by
  rw [lost, lost, h]

theorem Sound.told_handleAll (hs : d.Sound) (leading : Bool) (rules : List Rule) :
    Told d.roster (d.handleAll leading rules).2.roster
      (lost d (d.handleAll leading rules).2) := by
  have hafter := (hs.installation rules).publishCount.reported_performLeading leading
    (d.installation rules).calls
  have htold := (hs.told_installation rules).trans hafter.told
  rw [add_zero] at htold
  have hlost : lost d (d.handleAll leading rules).2 = lost d (d.installation rules).discoverer :=
    lost_congr hafter.installed
  rw [hlost]
  exact htold.report nofun

theorem Sound.told_handle (hs : d.Sound) {leading : Bool} {rule : Rule}
    (hh : d.handle leading rule = .ok d') : Told d.roster d'.roster (lost d d') := by
  simp only [Discoverer.handle, bind_eq_ok_iff] at hh
  obtain ⟨⟨p, d₁⟩, hi, hh⟩ := hh
  cases hh
  have hs₁ : d₁.Sound := hs.install hi
  have hafter := hs₁.publishCount.reported_performLeading leading (apiServerCalls p)
  have htold := (hs.told_of_inherits hs₁ (hs.install_inherits hi) (hs.quiet_install hi)).trans
    hafter.told
  rw [add_zero] at htold
  have hlost : lost d (d₁.publishCount.performLeading leading (apiServerCalls p)) = lost d d₁ :=
    lost_congr hafter.installed
  rwa [hlost]

theorem Sound.told_delete (hs : d.Sound) (name : String) :
    Told d.roster (d.delete name).roster (lost d (d.delete name)) := by
  have htold : Told d.roster (d.teardown name).roster (lost d (d.teardown name)) :=
    hs.told_of_inherits (hs.teardown name) (hs.teardown_inherits name) (hs.quiet_teardown name)
  exact htold

theorem Sound.told_deleteAll (hs : d.Sound) :
    Told d.roster d.deleteAll.roster (d.unreported .deleteAll) := by
  have hs' : (d.handleAll false []).2.Sound := hs.handleAll false []
  have hcleared : ((d.missing []).foldl Discoverer.teardown d).Sound :=
    hs.teardownAll (d.missing [])
  -- removing the rules does not touch what asked for itself
  have hown : (d.handleAll false []).2.roster.holdingsOf (d.handleAll false []).2.annotated =
      d.roster.holdingsOf d.annotated := by
    rw [annotated_handleAll]
    exact hs.holdingsOf_of_inherits hcleared (hs.teardownAll_inherits _) (hs.quiet_teardownAll _)
      (mem_installed.mpr (Or.inr (d.annotated_teardownAll (d.missing [])).symm))
  have htold := (hs.told_handleAll false []).trans
    (told_dismiss hs'.consistent (d.handleAll false []).2.annotated)
  rw [hown] at htold
  exact htold

theorem Sound.told_step (hs : d.Sound) (op : Operation) :
    Told d.roster (d.step op).roster (d.unreported op) := by
  have hbulk : ∀ {op : Operation}, op.endsAnnotations = false →
      Told d.roster (d.step op).roster (lost d (d.step op)) →
      Told d.roster (d.step op).roster (d.unreported op) := by
    intro op hno htold
    rwa [unreported, hno, if_neg Bool.false_ne_true, add_zero]
  cases op with
  | handleAll leading rules => exact hbulk rfl (hs.told_handleAll leading rules)
  | handle leading rule =>
    refine hbulk rfl ?_
    simp only [Discoverer.step]
    cases hh : d.handle leading rule with
    | error _ =>
      show Told d.roster d.roster (lost d d)
      rw [lost_of_installed_eq rfl]
      exact .refl _
    | ok d' => exact hs.told_handle hh
  | delete name => exact hbulk rfl (hs.told_delete name)
  | discover leading resource =>
    have h : Reported d (d.discover leading resource) := by
      unfold Discoverer.discover
      split
      · exact .refl d
      · exact hs.reported_performAll _
    exact Reported.told_step h rfl
  | deleteResource resource =>
    have h : Reported d (d.step (.deleteResource resource)) := hs.reported_performAll _
    exact h.told_step rfl
  | deleteClusterScoped resources =>
    have h : Reported d (d.step (.deleteClusterScoped resources)) :=
      hs.reported_deleteClusterScoped resources
    exact h.told_step rfl
  | setAnnotationPolicy excludes disabled =>
    cases disabled with
    | false =>
      have h : Reported d (d.step (.setAnnotationPolicy excludes false)) := ⟨rfl, .refl _⟩
      exact h.told_step rfl
    | true =>
      have hnone : lost d (d.step (.setAnnotationPolicy excludes true)) = 0 :=
        lost_of_installed_eq rfl
      rw [unreported, hnone, zero_add]
      exact told_dismiss hs.consistent d.annotated
  | refreshApiServer leading =>
    have h : Reported d (d.step (.refreshApiServer leading)) := hs.reported_performLeading leading _
    exact h.told_step rfl
  | deleteAll => exact hs.told_deleteAll

/-! ## Runs -/

/-- What is given up in the course of operations without a report. -/
def unreportedAlong (d : Discoverer) : List Operation → Holdings
  | [] => 0
  | op :: ops => d.unreported op + (d.step op).unreportedAlong ops

theorem Sound.told_run (hs : d.Sound) (ops : List Operation) :
    Told d.roster (d.run ops).roster (d.unreportedAlong ops) := by
  induction ops generalizing d with
  | nil => exact .refl _
  | cons op ops ih => exact (hs.told_step op).trans (ih (hs.step op))

theorem unreportedAlong_eq_zero_iff {ops : List Operation} :
    d.unreportedAlong ops = 0 ↔
      ∀ ops' op, ops' ++ [op] <+: ops → (d.run ops').unreported op = 0 := by
  induction ops generalizing d with
  | nil =>
    refine iff_of_true rfl fun ops' op hpre => ?_
    exact absurd (List.prefix_nil.mp hpre) (by simp)
  | cons op ops ih =>
    rw [unreportedAlong, add_eq_zero, ih]
    constructor
    · rintro ⟨hfirst, hrest⟩ ops' op' hpre
      cases ops' with
      | nil =>
        obtain ⟨rfl, -⟩ := List.cons_prefix_cons.mp hpre
        exact hfirst
      | cons op₁ ops' =>
        obtain ⟨rfl, hpre'⟩ := List.cons_prefix_cons.mp hpre
        exact hrest ops' op' hpre'
    · intro hall
      refine ⟨hall [] op (List.cons_prefix_cons.mpr ⟨rfl, List.nil_prefix⟩),
        fun ops' op' hpre => ?_⟩
      exact hall (op :: ops') op' (List.cons_prefix_cons.mpr ⟨rfl, hpre⟩)

/-- The events of a run lead to the ledger of what is held, each target with the name of its
    factory, and of all that went unreported. So replaying them gives what is held after every
    operation exactly if no operation gave up targets in bulk, those of a handler that it
    uninstalled or of all that asked for themselves. -/
theorem replay_log (settings : Settings) (nodeName : String) (ops : List Operation) :
    let d := start settings nodeName
    (d.run ops).inventory = ((d.run ops).targets.map entryOf : Holdings) ∧
      LogEvent.replay? (d.run ops).roster.log =
        some ((d.run ops).inventory + d.unreportedAlong ops) ∧
      ((∀ ops', ops' <+: ops →
          LogEvent.replay? (d.run ops').roster.log = some (d.run ops').inventory) ↔
        ∀ ops' op, ops' ++ [op] <+: ops → (d.run ops').unreported op = 0) := by
  intro d
  have hs : d.Sound := sound_start settings nodeName
  have hw : (d.run ops).WellFormed := hs.wellFormed_run (wellFormed_start settings nodeName) ops
  have hreplay : ∀ ops, LogEvent.replay? (d.run ops).roster.log =
      some ((d.run ops).inventory + d.unreportedAlong ops) := by
    intro ops
    obtain ⟨events, hlog, hlead⟩ := hs.told_run ops
    have hnolog : d.roster.log = [] := log_add _ _
    have hnone : d.roster.holdings = 0 := hs.inventory_eq_holdings.symm
    have hlast := hlead 0
    rw [hnone, zero_add, add_zero, ← (hs.run ops).inventory_eq_holdings] at hlast
    rw [LogEvent.replay?, hlog, hnolog, List.nil_append, hlast]
  refine ⟨hw.inventory_eq_targets, hreplay ops, fun hall => ?_, fun hall ops' hpre => ?_⟩
  · rw [← unreportedAlong_eq_zero_iff]
    have hlast := (hreplay ops).symm.trans (hall ops (List.prefix_refl ops))
    simpa using hlast
  · rw [hreplay, unreportedAlong_eq_zero_iff.mpr fun ops'' op h => hall ops'' op (h.trans hpre),
      add_zero]

/-- A rule is deleted while it holds a pod. Nothing is held then, but according to the events the
    target is still there. -/
theorem unreported_of_deleted_rule :
    let d := (start {} "node-1").run
      [.handleAll true [redisRule "a" "telegraf/redis"], .discover true redisPod, .delete "a"]
    LogEvent.replay? d.roster.log = some {("pod/ns/x", Family.telegraf.factoryName)} ∧
      d.inventory = 0 := by
  decide +kernel

end ScrapeDiscovery.Discoverer

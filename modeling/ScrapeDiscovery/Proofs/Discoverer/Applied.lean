import ScrapeDiscovery.Proofs.Discoverer.Claims
import ScrapeDiscovery.Proofs.Discoverer.Lasting

/-!
# Rules that are in effect

When the rules of a list were made the installed ones, under each name stands the rule
that the list leaves installed, and whoever a rule that lasts asks for the API server
has answered: if it can encode the API server, somebody in its registry owns the
target. Pods and services that come and go afterwards do not change that, since what
is reported of them leaves the pipelines and the target of the API server alone.

Results:
* `Sound.applied_handleAll`: rules are in effect once they were made the installed ones.
* `Sound.aside_run`: what reports of pods and services leave as it is.
* `Applied.aside`: rules stay in effect then.
-/

namespace ScrapeDiscovery.Discoverer

/-- The encoding of the API server by the handler of a pipeline under a rule, if it has one. -/
def encodeApiServer? (d : Discoverer) (p : Pipeline) (rule : Rule) : Option ScrapeConfig :=
  d.encode? { p with rule := forApiServer rule } .apiServer

/-- Somebody in the registry of a pipeline owns the target of the API server. -/
def ApiServerOwned (d : Discoverer) (p : Pipeline) : Prop :=
  ∃ registry, d.roster.registryOf? p.handler = some registry ∧
    (d.roster.owner? registry Resource.apiServer.targetName).isSome = true

/-- The rules of a list are in effect: the installed ones are those that the list leaves installed,
    and where one that lasts can be answered for the API server, it was. -/
structure Applied (d : Discoverer) (leading : Bool) (rules : List Rule) : Prop where
  fixed : ∀ name, d.rule? name =
    if name ∈ rules.map (·.name) then (lastValid? rules name).or (d.rule? name) else none
  answered : leading = true → ∀ rule, Lasting rules rule → rule.IsForApiServer →
    ∀ p, d.pipelines.get? rule.name = some p → (d.encodeApiServer? p rule).isSome = true →
      d.ApiServerOwned p

/-! ## The rules of a list are in effect -/

/-- Whoever is asked for the API server and can answer leaves its target with an owner. -/
theorem Sound.apiServerOwned_performAll {d : Discoverer} (hs : d.Sound)
    {calls : List HandlerCall} (hcalls : ∀ c ∈ calls, c.IsHandle) {p : Pipeline}
    (hp : p ∈ d.pipelines.values) {rule : Rule}
    (hc : .handle p.handler .apiServer (forApiServer rule) ∈ calls)
    (henc : (d.encodeApiServer? p rule).isSome = true) :
    (d.performAll calls).ApiServerOwned p := by
  obtain ⟨before, after, rfl⟩ := List.append_of_mem hc
  obtain ⟨h, hid, -⟩ := hs.ready hp
  have hreg : d.roster.registryOf? p.handler = some h.registry :=
    Roster.registryOf?_eq_some_iff.mpr ⟨h, hid, rfl⟩
  have hk := hs.performAll_keeps before
  have hp' : p ∈ (d.performAll before).pipelines.values := by
    rwa [(performAll_pipelines d before).1]
  have hasked := (hs.performAll before).owner?_isSome_perform_handle hp' .apiServer
    (forApiServer rule) h.registry (Or.inr ⟨(hk.registryOf?_eq _).trans hreg,
      (congrArg Option.isSome (encode?_of_keeps hk _ _)).trans henc⟩)
  refine ⟨h.registry, ((hs.performAll_keeps _).registryOf?_eq _).trans hreg, ?_⟩
  rw [performAll_append]
  refine (((hs.performAll before).perform _).performAll_advances ?_).isSome_owner? hasked
  exact fun c hc => hcalls c (List.mem_append_right before (List.mem_cons_of_mem _ hc))

theorem isForApiServer_of_mem_installation_calls (d : Discoverer) (rules : List Rule) :
    ∀ c ∈ (d.installation rules).calls, c.IsForApiServer :=
  isForApiServer_of_mem_installation (fun _ h => absurd h List.not_mem_nil) rules

/-- The calls for the API server keep what the rules were installed with. -/
theorem Sound.installation_keeps {d : Discoverer} (hs : d.Sound) (leading : Bool)
    (rules : List Rule) :
    (d.installation rules).discoverer.roster.Keeps (d.handleAll leading rules).2.roster :=
  have hk := (hs.installation rules).publishCount.performLeading_keeps leading
    (d.installation rules).calls
  ⟨hk.consistent, hk.blank, hk.closed⟩

theorem Sound.applied_handleAll {d : Discoverer} (hs : d.Sound) (leading : Bool)
    (rules : List Rule) : (d.handleAll leading rules).2.Applied leading rules := by
  refine ⟨fun name => ?_, ?_⟩
  · rw [hs.rule?_handleAll]
    split_ifs
    · rw [← Option.or_assoc, Option.or_self]
    · rfl
  · rintro rfl rule hlast hfor p hp henc
    rw [pipelines_handleAll] at hp
    obtain ⟨p', hp', -, hc⟩ := Sound.exists_call_of_lasting
      (i := { discoverer := d.kept rules }) (hs.kept rules) hlast hfor
    obtain rfl := Option.some.inj (hp'.symm.trans hp)
    have hcalls := fun c hc => (isForApiServer_of_mem_installation_calls d rules c hc).isHandle
    have henc' : ((d.installation rules).discoverer.encodeApiServer? p' rule).isSome = true :=
      (congrArg Option.isSome (encode?_of_keeps (hs.installation_keeps true rules) _ _)).symm.trans
        henc
    exact (hs.installation rules).publishCount.apiServerOwned_performAll hcalls
      (KeyMap.mem_values_iff.mpr ⟨_, hp⟩) hc henc'

/-! ## Reports -/

/-- A pod or a service is reported, or reported to be gone. -/
def Operation.IsReport (leading : Bool) : Operation → Prop
  | .discover leading' resource => leading' = leading ∧ resource.kind ≠ .apiServer
  | .deleteResource resource => resource.kind ≠ .apiServer
  | _ => False

/-- What reports of pods and services leave as it is: the pipelines, all of the handlers but their
    targets, and the target of the API server. -/
structure Aside (d d' : Discoverer) : Prop where
  keeps : d.roster.Keeps d'.roster
  pipelines : d'.pipelines = d.pipelines
  encoding : ∀ id, d'.roster.encoding id Resource.apiServer.targetName =
    d.roster.encoding id Resource.apiServer.targetName

theorem Aside.trans {d d' d'' : Discoverer} (h : Aside d d') (h' : Aside d' d'') : Aside d d'' :=
  ⟨h.keeps.trans h'.keeps, h'.pipelines.trans h.pipelines, fun id =>
    (h'.encoding id).trans (h.encoding id)⟩

theorem Sound.aside_step {d : Discoverer} (hs : d.Sound) {leading : Bool} {op : Operation}
    (hop : op.IsReport leading) : Aside d (d.step op) := by
  have hname : ∀ {r : Resource}, r.kind ≠ .apiServer →
      Resource.apiServer.targetName ≠ r.targetName := fun hkind he =>
    hkind (Resource.kind_eq_of_targetName_eq he).symm
  cases op with
  | discover leading' resource =>
    exact ⟨hs.discover_keeps leading' resource, d.pipelines_discover leading' resource,
      hs.encoding_discover_of_ne (hname hop.2)⟩
  | deleteResource resource =>
    refine ⟨hs.performAll_keeps _, (performAll_pipelines d _).1, fun id => ?_⟩
    show (d.deleteResource resource).roster.encoding id _ = _
    rw [deleteResource_eq, hs.encoding_performAll_deletes, if_neg fun h => hname hop h.2]
  | _ => exact hop.elim

theorem Sound.aside_run {d : Discoverer} (hs : d.Sound) {leading : Bool} {ops : List Operation}
    (hops : ∀ op ∈ ops, op.IsReport leading) : Aside d (d.run ops) := by
  induction ops generalizing d with
  | nil => exact ⟨.refl hs.consistent, rfl, fun _ => rfl⟩
  | cons op ops ih =>
    exact (hs.aside_step (hops op List.mem_cons_self)).trans
      (ih (hs.step op) fun op' hop' => hops op' (List.mem_cons_of_mem op hop'))

theorem Aside.encodeApiServer?_eq {d d' : Discoverer} (h : Aside d d') (p : Pipeline)
    (rule : Rule) : d'.encodeApiServer? p rule = d.encodeApiServer? p rule :=
  encode?_of_keeps h.keeps _ _

theorem Applied.aside {d d' : Discoverer} (hs : d.Sound) {leading : Bool} {rules : List Rule}
    (ha : d.Applied leading rules) (h : Aside d d') : d'.Applied leading rules := by
  refine ⟨fun name => ?_, fun hleading rule hlast hfor p hp henc => ?_⟩
  · have hrule : d'.rule? name = d.rule? name := by rw [rule?, h.pipelines, rule?]
    rw [hrule]
    exact ha.fixed name
  · rw [h.pipelines] at hp
    rw [h.encodeApiServer?_eq] at henc
    obtain ⟨registry, hreg, howned⟩ := ha.answered hleading rule hlast hfor p hp henc
    refine ⟨registry, (h.keeps.registryOf?_eq _).trans hreg, ?_⟩
    obtain ⟨i, hi⟩ := Option.isSome_iff_exists.mp howned
    obtain ⟨hregi, hh⟩ := (hs.consistent _ _ _).mp hi
    have hh' : d'.roster.holds i Resource.apiServer.targetName = true :=
      (congrArg Option.isSome (h.encoding i)).trans hh
    rw [(h.keeps.consistent _ _ _).mpr ⟨(h.keeps.registryOf?_eq i).trans hregi, hh'⟩]
    rfl

end ScrapeDiscovery.Discoverer

import ScrapeDiscovery.Proofs.Discoverer.Idempotence
import ScrapeDiscovery.Proofs.Scrape.Consulted

/-!
# Metadata that makes no difference

Whoever writes to the metadata of a resource has it reported once more. If just annotations
changed that no encoder looks at, nothing comes of it. Filters do not look at annotations, so the
same rules claim the resource, the same handlers are asked about it and it asks for itself as
before. And every handler that is asked encodes it with an encoder of the standard table, that
is as before.

Results:
* `ResourceFilter.isMatch_alike`: filters do not look at annotations.
* `Sound.consults`: which annotations the handlers look at.
* `Sound.discover_alike`: two resources that agree on what is looked at lead to one state.
* `discover_irrelevant`: the same in every state of a run, and with one after the other.
-/

namespace ScrapeDiscovery

variable {keys : AnnotationKeys} {r r' : Resource}

/-! ## Filters and policies -/

theorem ResourceFilter.isMatch_alike (h : r.Alike keys r') (f : ResourceFilter) :
    f.isMatch r' = f.isMatch r := by
  simp only [isMatch, h.kind, h.labels, h.ns, h.containers]

theorem AnnotationPolicy.isExcluded_alike (h : r.Alike keys r') (p : AnnotationPolicy) :
    p.isExcluded r' = p.isExcluded r := by
  simp only [isExcluded, ResourceFilter.isMatch_alike h]

theorem AnnotationPolicy.allows_alike (h : r.Alike keys r') (p : AnnotationPolicy) :
    p.allows r' = p.allows r := by
  simp only [allows, isExcluded_alike h]

/-! ## Handlers -/

/-- The standard encoders look at annotations with one prefix only, but for those of inputs. -/
theorem EncoderTable.consults_of_resolve {annotationPrefix nodeName pluginType : String}
    {e : Encoder} (he : (standard annotationPrefix nodeName).resolve pluginType = .ok e) :
    e.Consults (.ofPrefix annotationPrefix) := by
  rw [resolve, get?_standard_encoders] at he
  split_ifs at he
  · cases he
    trivial
  · cases he
    trivial
  · cases he
    rfl
  · -- only the generic encoder of inputs is left
    cases hfamily : Family.ofPluginType pluginType with
    | error fault =>
      rw [hfamily] at he
      cases he
    | ok family =>
      rw [hfamily] at he
      cases family with
      | prometheus => cases he
      | telegraf =>
        cases he
        trivial

/-- A handler does for one resource what it does for the other. -/
theorem Roster.handle_alike {roster : Roster} {id : HandlerId}
    (hconsults : ∀ h, roster.handler? id = some h → h.encoder.Consults keys)
    (h : r.Alike keys r') (rule : Option Rule) (confirmed : Bool) :
    roster.handle id r' rule confirmed = roster.handle id r rule confirmed := by
  cases hid : roster.handler? id with
  | none => rw [handle_of_handler?_eq_none hid, handle_of_handler?_eq_none hid]
  | some handler =>
    simp only [Roster.handle, hid, h.targetName_eq, Encoder.encode_alike h (hconsults handler hid)]

namespace Discoverer

variable {d : Discoverer} {annotationPrefix nodeName : String}

/-- Every handler that is asked has one of the standard encoders. -/
theorem Sound.consults (hs : d.Sound) (hencoders : d.encoders = .standard annotationPrefix nodeName)
    {id : HandlerId} (hin : id ∈ d.installed) {h : TargetHandler}
    (hid : d.roster.handler? id = some h) : h.encoder.Consults (.ofPrefix annotationPrefix) := by
  rcases mem_installed.mp hin with hhandler | rfl
  · obtain ⟨k, p, hp, rfl⟩ := mem_handlers.mp hhandler
    obtain ⟨h', hid', hm⟩ := hs.made k p hp
    obtain rfl := Option.some.inj (hid'.symm.trans hid)
    obtain ⟨-, -, hresolve, -⟩ := makeHandler_eq_ok hm
    rw [hencoders] at hresolve
    exact EncoderTable.consults_of_resolve hresolve
  · obtain ⟨h', hid', hb⟩ := hs.handler?_annotated hencoders
    obtain rfl := Option.some.inj (hid'.symm.trans hid)
    have hencoder : h'.encoder = .prometheus (.ofPrefix annotationPrefix) nodeName :=
      congrArg TargetHandler.encoder hb
    rw [hencoder]
    rfl

section Alike

variable (h : r.Alike (.ofPrefix annotationPrefix) r')
include h

theorem claims_alike (d : Discoverer) : d.claims r' = d.claims r := by
  simp only [claims, ResourceFilter.isMatch_alike h]

theorem strays_alike (d : Discoverer) : d.strays r' = d.strays r := by
  simp only [strays, ResourceFilter.isMatch_alike h, h.targetName_eq]

theorem Sound.annotate_alike (hs : d.Sound)
    (hencoders : d.encoders = .standard annotationPrefix nodeName) :
    d.annotate r' = d.annotate r := by
  have hconsults := fun handler => hs.consults hencoders (mem_installed.mpr (Or.inr rfl))
    (h := handler)
  simp only [annotate, h.kind, h.targetName_eq, AnnotationPolicy.allows_alike h,
    AnnotationPolicy.isExcluded_alike h, Roster.handle_alike hconsults h]

/-- The rules that claim both resources are asked about either of them. -/
theorem Sound.performAll_alike (hs : d.Sound)
    (hencoders : d.encoders = .standard annotationPrefix nodeName) {claiming : List Pipeline}
    (hclaiming : ∀ p ∈ claiming, p ∈ d.pipelines.values) :
    d.performAll (claiming.map fun p => .handle p.handler r' p.rule) =
      d.performAll (claiming.map fun p => .handle p.handler r p.rule) := by
  induction claiming generalizing d with
  | nil => rfl
  | cons p ps ih =>
    obtain ⟨hp, hps⟩ := List.forall_mem_cons.mp hclaiming
    have hin : p.handler ∈ d.installed :=
      mem_installed.mpr (Or.inl (List.mem_map_of_mem hp))
    have hfirst : d.perform (.handle p.handler r' p.rule) =
        d.perform (.handle p.handler r p.rule) :=
      congrArg (fun roster => { d with roster := roster })
        (Roster.handle_alike (fun _ => hs.consults hencoders hin) h (some p.rule) false)
    have hrest := ih (hs.perform (.handle p.handler r p.rule)) hencoders hps
    rw [List.map_cons, List.map_cons, Discoverer.performAll, Discoverer.performAll,
      List.foldl_cons, List.foldl_cons, hfirst]
    exact hrest

/-- Two resources that agree on what is looked at lead to the same state. -/
theorem Sound.discover_alike (hs : d.Sound)
    (hencoders : d.encoders = .standard annotationPrefix nodeName) (leading : Bool) :
    d.discover leading r' = d.discover leading r := by
  have hcalls : d.performAll (d.calls r') = d.performAll (d.calls r) := by
    rw [performAll_calls, performAll_calls, strays_alike h, claims_alike h, h.targetName_eq]
    let given := d.performAll ((d.strays r).map (.delete · r.targetName))
    have hgiven : given.Sound := hs.performAll _
    have hsetup : given.encoders = .standard annotationPrefix nodeName :=
      (d.sameSetup_performAll _).encoders.trans hencoders
    have hpipelines : given.pipelines = d.pipelines := (performAll_pipelines d _).1
    have hclaiming : ∀ p ∈ d.claims r, p ∈ given.pipelines.values := fun p hp =>
      hpipelines ▸ (mem_claims_iff.mp hp).1
    let alone := given.perform (.delete d.annotated r.targetName)
    have hrules := Sound.performAll_alike h (hgiven.perform (.delete d.annotated r.targetName))
      hsetup hclaiming
    show (if _ then given.annotate r' else alone.performAll _) =
      if _ then given.annotate r else alone.performAll _
    rw [hgiven.annotate_alike h hsetup, hrules]
  rw [Discoverer.discover, Discoverer.discover, h.kind, hcalls]

end Alike

/-- Let two resources agree on everything but annotations that no encoder looks at. In every state
    of a run, taking in the one comes to the same as taking in the other. And if the one was taken
    in, then taking in the other asks nothing of the catalog, reports nothing and changes nothing,
    except that it may count as faulty again. -/
theorem discover_irrelevant (settings : Settings) (nodeName : String) (ops : List Operation)
    (leading : Bool) (h : r.Alike (.ofPrefix settings.effectivePrefix) r') :
    let d := (start settings nodeName).run ops
    let d' := d.discover leading r
    d.discover leading r' = d' ∧
      (d'.discover leading r').roster.calls = d'.roster.calls ∧
      (d'.discover leading r').roster.log = d'.roster.log ∧
      ∃ k, d'.discover leading r' = d'.countFaults k := by
  intro d d'
  have hs : d.Sound := sound_run settings nodeName ops
  have hencoders : d.encoders = .standard settings.effectivePrefix nodeName :=
    (setup_run settings nodeName ops).1
  have hencoders' : d'.encoders = .standard settings.effectivePrefix nodeName :=
    (d.sameSetup_discover leading r).encoders.trans hencoders
  have hagain : d'.discover leading r' = d'.discover leading r :=
    Sound.discover_alike h (hs.discover leading r) hencoders' leading
  obtain ⟨k, hk⟩ := hs.discover_again leading r
  rw [hagain, hk]
  exact ⟨Sound.discover_alike h hs hencoders leading, rfl, rfl, k, rfl⟩

/-- A pod that asks to be scraped and has a checksum among its annotations. -/
def checkedPod (checksum : String) : Resource where
  kind := .pod
  ip := "10.0.0.7"
  object := { name := "x", ns := "ns",
              annotations := .ofList [("prometheus.io/scrape", "true"), ("checksum", checksum)] }

/-- With another checksum a pod that became a target is taken in once more, and that is all. -/
theorem discover_checkedPod :
    let d' := ((start {} "node-1").run []).discover false (checkedPod "1")
    (checkedPod "1").Alike (.ofPrefix ({} : Settings).effectivePrefix) (checkedPod "2") ∧
      d'.roster.calls.length = 1 ∧
      (d'.discover false (checkedPod "2")).roster.calls = d'.roster.calls ∧
      (d'.discover false (checkedPod "2")).roster.log = d'.roster.log := by
  intro d'
  have halike : (checkedPod "1").Alike (.ofPrefix ({} : Settings).effectivePrefix)
      (checkedPod "2") := ⟨rfl, rfl, rfl, rfl, rfl, rfl, by decide +kernel⟩
  obtain ⟨-, hcalls, hlog, -⟩ := discover_irrelevant {} "node-1" [] false halike
  exact ⟨halike, by decide +kernel, hcalls, hlog⟩

end Discoverer

end ScrapeDiscovery

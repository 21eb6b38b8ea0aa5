import ScrapeDiscovery.Proofs.Discoverer.Claims
import ScrapeDiscovery.Proofs.Discoverer.Handover
import ScrapeDiscovery.Proofs.Manager.Replay

/-!
# What the rules hold after changed settings were applied

A rule that is replaced in place keeps its handler with all targets. Taking the
remembered resources in once more then takes away what the new version does not
claim, target by target. Two kinds of targets are not reached that way: those
that outlived their resource, and the target of the API server, which is not
remembered at all. A rule that is not for the API server any longer holds that
target exactly if it did before.

Results:
* `resync_discoverer`: the discoverer after changed settings were applied.
* `Sound.isMatch_of_holds_resync`: remembered resources are held where they are claimed.
* `Sound.holds_apiServer_resync`: the target of the API server stays where it was.
* `claims_iff_of_resync`: when exactly a rule holds a target that it does not claim.
-/

namespace ScrapeDiscovery.Manager

/-- A target belongs to a remembered resource, or to the API server, that a pipeline claims. -/
def Claims (m : Manager) (p : Pipeline) (target : String) : Prop :=
  ∃ r, (r ∈ m.cache.values ∨ r = .apiServer) ∧ r.targetName = target ∧ p.filter.isMatch r = true

/-! ## The state after a replay -/

theorem replayAll_discoverer (m : Manager) (rs : List Resource) :
    (rs.foldl replay m).agent.discoverer = m.agent.discoverer.discoverAll m.leading rs := by
  induction rs generalizing m with
  | nil => rfl
  | cons r rs ih => exact ih (m.replay r)

theorem replayAll_cache (m : Manager) (rs : List Resource) :
    (rs.foldl replay m).cache = m.cache := by
  induction rs generalizing m with
  | nil => rfl
  | cons r rs ih => exact ih (m.replay r)

theorem resync_cache (m : Manager) : m.resync.2.cache = m.cache := by
  simp only [resync]
  split
  · exact replayAll_cache _ _
  · rfl

/-- The discoverer after the settings in effect were applied, before anything is taken in. -/
def adopted (m : Manager) : Discoverer :=
  let s := m.lookAtSettings.1.1
  ((m.agent.discoverer.setAnnotationPolicy s.annotationExcludes s.annotationsDisabled).handleAll
    m.leading s.rules).2

/-- Changed settings are applied first, and then all remembered resources are taken in. -/
theorem resync_discoverer {m : Manager} (hleading : m.leading = true)
    (hchanged : m.resync.1 = true) :
    m.resync.2.agent.discoverer = m.adopted.discoverAll true m.cache.values := by
  have hall : m.snapshot = m.cache.values := by
    rw [snapshot, hleading]
    exact List.filter_eq_self.mpr fun _ _ => rfl
  simp only [resync] at hchanged ⊢
  split at hchanged
  · next hnew =>
    rw [if_pos hnew, replayAll_discoverer]
    show m.adopted.discoverAll m.leading m.snapshot = _
    rw [hleading, hall]
  · cases hchanged

theorem Sound.adopted {m : Manager} (hs : m.Sound) : m.adopted.Sound :=
  (hs.discoverer.setAnnotationPolicy _ _).handleAll _ _

theorem pipelines_resync {m : Manager} (hleading : m.leading = true)
    (hchanged : m.resync.1 = true) :
    m.resync.2.agent.discoverer.pipelines = m.adopted.pipelines := by
  rw [resync_discoverer hleading hchanged, Discoverer.pipelines_discoverAll]

/-! ## Remembered resources -/

/-- A rule that holds the target of a remembered resource claims one with that target. -/
theorem Sound.isMatch_of_holds_resync {m : Manager} (hs : m.Sound) (hleading : m.leading = true)
    (hchanged : m.resync.1 = true) {p : Pipeline}
    (hp : p ∈ m.resync.2.agent.discoverer.pipelines.values) {target : String}
    (hh : m.resync.2.agent.discoverer.roster.holds p.handler target = true)
    (hrem : m.Remembers target) :
    ∃ r ∈ m.cache.values, r.targetName = target ∧ p.filter.isMatch r = true := by
  rw [pipelines_resync hleading hchanged] at hp
  rw [resync_discoverer hleading hchanged] at hh
  exact hs.adopted.isMatch_of_holds_discoverAll (fun _ _ _ => rfl) hp hh hrem

/-! ## The target of the API server -/

theorem nextId_setAnnotationPolicy (d : Discoverer) (excludes : List Selectors)
    (disabled : Bool) :
    (d.setAnnotationPolicy excludes disabled).roster.nextId = d.roster.nextId := by
  unfold Discoverer.setAnnotationPolicy
  split
  · exact Roster.nextId_dismiss d.roster d.annotated fun _ => true
  · rfl

theorem pipelines_setAnnotationPolicy (d : Discoverer) (excludes : List Selectors)
    (disabled : Bool) : (d.setAnnotationPolicy excludes disabled).pipelines = d.pipelines := by
  unfold Discoverer.setAnnotationPolicy
  split <;> rfl

/-- Those who ask for themselves may have to give up targets, but no rule does. -/
theorem encoding_setAnnotationPolicy {d : Discoverer} {id : HandlerId}
    (hne : id ≠ d.annotated) (excludes : List Selectors) (disabled : Bool) (target : String) :
    (d.setAnnotationPolicy excludes disabled).roster.encoding id target =
      d.roster.encoding id target := by
  unfold Discoverer.setAnnotationPolicy
  split
  · have hd := Roster.encoding_dismiss d.roster d.annotated (fun _ => true) id target
    exact hd.trans (if_neg fun h => hne h.1)
  · rfl

/-- Of the target of the API server a pipeline holds what its handler held before, unless a rule
    for the API server has its name. -/
theorem Sound.encoding_apiServer_adopted {m : Manager} (hs : m.Sound) {p : Pipeline}
    (hp : p ∈ m.adopted.pipelines.values)
    (hrules : ∀ rule ∈ m.lookAtSettings.1.1.rules, rule.name = p.rule.name →
      ¬rule.IsForApiServer) :
    m.adopted.roster.encoding p.handler Resource.apiServer.targetName =
      m.agent.discoverer.roster.encoding p.handler Resource.apiServer.targetName := by
  let s := m.lookAtSettings.1.1
  let d := m.agent.discoverer
  let d₁ := d.setAnnotationPolicy s.annotationExcludes s.annotationsDisabled
  have hs₁ : d₁.Sound := hs.discoverer.setAnnotationPolicy _ _
  obtain ⟨k, hk⟩ := KeyMap.mem_values_iff.mp hp
  have hname : p.rule.name = k := hs.adopted.named k p hk
  rcases hs₁.handleAll_inherits m.leading hk
    fun _ rule hrule he => hrules rule hrule (he.trans hname.symm) with
    ⟨old, hold, hid, -, henc⟩ | ⟨hnew, hnone⟩
  · rw [pipelines_setAnnotationPolicy] at hold
    have hne : p.handler ≠ d.annotated := hid ▸ hs.discoverer.apart k old hold
    exact henc.trans (encoding_setAnnotationPolicy hne _ _ _)
  · -- a new handler was not there before
    refine hnone.trans (Roster.encoding_of_handler?_eq_none ?_ _).symm
    cases hid : d.roster.handler? p.handler with
    | none => rfl
    | some h =>
      rw [nextId_setAnnotationPolicy] at hnew
      exact absurd (Roster.lt_nextId_of_handler? hid) (Nat.not_lt_of_le hnew)

/-- A rule that is not for the API server holds its target exactly if it did before, unless a
    resource of that name was remembered. -/
theorem Sound.holds_apiServer_resync {m : Manager} (hs : m.Sound) (hleading : m.leading = true)
    (hchanged : m.resync.1 = true) {p : Pipeline}
    (hp : p ∈ m.resync.2.agent.discoverer.pipelines.values) (hkind : p.filter.kind ≠ .apiServer)
    (hrules : ∀ rule ∈ m.lookAtSettings.1.1.rules, rule.name = p.rule.name →
      ¬rule.IsForApiServer) :
    m.resync.2.agent.discoverer.roster.holds p.handler Resource.apiServer.targetName = true ↔
      m.agent.discoverer.roster.holds p.handler Resource.apiServer.targetName = true ∧
        ¬m.Remembers Resource.apiServer.targetName := by
  by_cases hrem : m.Remembers Resource.apiServer.targetName
  · refine iff_of_false (fun hh => ?_) fun h => h.2 hrem
    obtain ⟨r, -, hname, hmatch⟩ := hs.isMatch_of_holds_resync hleading hchanged hp hh hrem
    have hr : r.kind = .apiServer := Resource.kind_eq_of_targetName_eq hname
    exact hkind ((ResourceFilter.kind_eq_of_isMatch hmatch).symm.trans hr)
  · have hother : ∀ r ∈ m.cache.values, r.targetName ≠ Resource.apiServer.targetName :=
      fun r hr he => hrem ⟨r, hr, he⟩
    have hframe := hs.adopted.encoding_discoverAll_of_ne true hother p.handler
    rw [pipelines_resync hleading hchanged] at hp
    rw [resync_discoverer hleading hchanged, Roster.holds_iff_encoding, hframe,
      hs.encoding_apiServer_adopted hp hrules, ← Roster.holds_iff_encoding]
    exact ⟨fun hh => ⟨hh, hrem⟩, And.left⟩

/-! ## Every run -/

theorem claims_iff_remembers {m : Manager} {p : Pipeline} {target : String}
    (hmatch : m.Remembers target →
      ∃ r ∈ m.cache.values, r.targetName = target ∧ p.filter.isMatch r = true) :
    m.Claims p target ↔ m.Remembers target ∨
      target = Resource.apiServer.targetName ∧ p.filter.isMatch .apiServer = true := by
  constructor
  · rintro ⟨r, hr | rfl, hname, hclaim⟩
    · exact Or.inl ⟨r, hr, hname⟩
    · exact Or.inr ⟨hname.symm, hclaim⟩
  · rintro (hrem | ⟨rfl, hclaim⟩)
    · obtain ⟨r, hr, hname, hclaim⟩ := hmatch hrem
      exact ⟨r, Or.inl hr, hname, hclaim⟩
    · exact ⟨.apiServer, Or.inr rfl, rfl, hclaim⟩

/-- In whatever order things happened before, right after a leading manager has applied changed
    settings every target that a rule holds is that of a remembered resource, or of the API server,
    which the rule claims; except for targets that had outlived their resources, and except for the
    target of the API server where no remembered resource has it and the rule does not claim it. A
    rule that is not for the API server holds that target exactly if it did before. -/
theorem claims_iff_of_resync (settings : Settings) (nodeName : String)
    (daemon scrapeCluster : Bool) (moves : List Move) :
    let start := create settings nodeName daemon scrapeCluster
    let m := start.run moves
    let m' := m.resync.2
    m.leading = true → m.resync.1 = true →
    ∀ p ∈ m'.agent.discoverer.pipelines.values,
      (∀ target, m'.agent.discoverer.roster.holds p.handler target = true →
        (m'.Claims p target ↔
          if target = Resource.apiServer.targetName then
            m.Remembers target ∨ p.filter.isMatch .apiServer = true
          else ¬start.StaleReplay moves target)) ∧
      (p.filter.kind ≠ .apiServer →
        (∀ rule ∈ m.lookAtSettings.1.1.rules, rule.name = p.rule.name → ¬rule.IsForApiServer) →
        (m'.agent.discoverer.roster.holds p.handler Resource.apiServer.targetName = true ↔
          m.agent.discoverer.roster.holds p.handler Resource.apiServer.targetName = true ∧
            ¬m.Remembers Resource.apiServer.targetName)) := by
  intro start m m' hleading hchanged p hp
  have hstart : start.Sound := sound_create settings nodeName daemon scrapeCluster
  have hs : m.Sound := hstart.run moves
  have hrem : ∀ target, m'.Remembers target ↔ m.Remembers target := by
    intro target
    rw [Remembers, Remembers, resync_cache]
  refine ⟨fun target hh => ?_, hs.holds_apiServer_resync hleading hchanged hp⟩
  have hclaims : m'.Claims p target ↔ m.Remembers target ∨
      target = Resource.apiServer.targetName ∧ p.filter.isMatch .apiServer = true := by
    rw [← hrem]
    refine claims_iff_remembers fun h => ?_
    rw [resync_cache]
    exact hs.isMatch_of_holds_resync hleading hchanged hp hh ((hrem target).mp h)
  rw [hclaims]
  split_ifs with htarget
  · rw [and_iff_right htarget]
  · rw [or_iff_left fun h => htarget h.1]
    constructor
    · exact fun h hstale => hstale.not_remembers h
    · intro hfresh
      by_contra hn
      -- the replay gave nobody such a target, so it was held without its resource before
      have hheld : m'.Holds target :=
        ⟨p.handler, Discoverer.mem_installed.mpr
          (Or.inl (List.mem_map.mpr ⟨p, hp, rfl⟩)), hh⟩
      have hbefore := (hs.resync_tidies.holds target htarget hheld).resolve_left
        (mt (hrem target).mp hn)
      have hnothing : start.Holds target → start.Remembers target := fun h =>
        absurd h (not_holds_create settings nodeName daemon scrapeCluster target)
      exact hfresh (hstart.staleReplay_of_not_remembers htarget hnothing hbefore.1 hn)

/-- A rule for the API server is replaced in place by one for pods with certain images. After the
    resync it still holds the target of the API server, which it does not claim. -/
theorem exists_unclaimed_after_resync :
    let apiServer : Rule :=
      { name := "a", pluginType := "prometheus", selectors := { resourceType := "apiserver" } }
    let redis : Rule :=
      { name := "a", pluginType := "prometheus", selectors := { images := ["redis:*"] } }
    let m := (create { rules := [apiServer] } "node-1" false true).run
      [.start, .changeSettings (·.setWired { rules := [redis] })]
    let m' := m.resync.2
    m.leading = true ∧ m.resync.1 = true ∧
      ∃ p ∈ m'.agent.discoverer.pipelines.values, p.rule = redis ∧
        m'.agent.discoverer.roster.holds p.handler Resource.apiServer.targetName = true ∧
        m'.cache.values = [] ∧ p.filter.isMatch .apiServer = false := by
  decide +kernel

/-- That rule holds the target because it did before, and does not claim it. -/
theorem unclaimed_after_replacement :
    let apiServer : Rule :=
      { name := "a", pluginType := "prometheus", selectors := { resourceType := "apiserver" } }
    let redis : Rule :=
      { name := "a", pluginType := "prometheus", selectors := { images := ["redis:*"] } }
    let m := (create { rules := [apiServer] } "node-1" false true).run
      [.start, .changeSettings (·.setWired { rules := [redis] })]
    let m' := m.resync.2
    m.leading = true ∧ m.resync.1 = true ∧
      ∃ p ∈ m'.agent.discoverer.pipelines.values,
        m'.agent.discoverer.roster.holds p.handler Resource.apiServer.targetName = true ∧
          ¬m'.Claims p Resource.apiServer.targetName := by
  intro apiServer redis m m'
  have hleading : m.leading = true := by decide +kernel
  have hchanged : m.resync.1 = true := by decide +kernel
  have hrule : ∃ p ∈ m'.agent.discoverer.pipelines.values,
      p.filter.kind ≠ .apiServer ∧ p.filter.isMatch .apiServer = false ∧
        m.agent.discoverer.roster.holds p.handler Resource.apiServer.targetName = true := by
    decide +kernel
  obtain ⟨p, hp, hkind, hmatch, hbefore⟩ := hrule
  obtain ⟨hclaims, hkept⟩ := claims_iff_of_resync { rules := [apiServer] } "node-1" false true
    [.start, .changeSettings (·.setWired { rules := [redis] })] hleading hchanged p hp
  have hfresh : ¬m.Remembers Resource.apiServer.targetName := by
    rintro ⟨r, hr, -⟩
    have hnone : m.cache.values = [] := by decide +kernel
    rw [hnone] at hr
    cases hr
  have hnone : ∀ rule ∈ m.lookAtSettings.1.1.rules, rule.name = p.rule.name →
      ¬rule.IsForApiServer := by
    have hall : ∀ rule ∈ m.lookAtSettings.1.1.rules, ¬rule.IsForApiServer := by decide +kernel
    exact fun rule hrule _ => hall rule hrule
  have hheld := (hkept hkind hnone).mpr ⟨hbefore, hfresh⟩
  refine ⟨hleading, hchanged, p, hp, hheld, fun hclaim => ?_⟩
  have h := (hclaims _ hheld).mp hclaim
  rw [if_pos rfl, hmatch] at h
  exact h.elim hfresh Bool.false_ne_true

end ScrapeDiscovery.Manager

import ScrapeDiscovery.Filter
import ScrapeDiscovery.Proofs.Scrape.Encoding

/-!
# What rules select

The selectors of a rule are texts: the name of a kind, patterns, and a port.
`Rule.IsFaultless` says when they have no fault, and `Rule.Selects` which resources they
select, without any compiled form. Compiling a rule succeeds exactly if it is faultless,
and then the filter that comes of it matches exactly the resources that the rule selects.

A group of patterns that is empty selects everything, but the labels that a rule lists
have to be there even without patterns. Of the containers only the first one counts whose
image matches.

Results:
* `GlobSet.isMatch_iff`: a set of compiled patterns.
* `compile_eq_ok_iff`: what a rule is compiled to.
* `compiles_and_matches`: compiled rules against rules as they are written.
-/

namespace ScrapeDiscovery

/-! ## Patterns -/

/-- A text is a glob. -/
def IsPattern (pattern : String) : Prop := ∃ g, Glob.compile pattern = .ok g

/-- A text matches a pattern. -/
def Matches (pattern value : String) : Prop :=
  ∃ g, Glob.compile pattern = .ok g ∧ g.isMatch value = true

/-- A text matches one of some patterns, or there are none. -/
def MatchesSome (patterns : List String) (value : String) : Prop :=
  patterns = [] ∨ ∃ pattern ∈ patterns, Matches pattern value

namespace GlobSet

theorem compilePattern_eq_ok_iff {pattern : String} {g : Glob} :
    compilePattern pattern = .ok g ↔ Glob.compile pattern = .ok g := by
  unfold compilePattern
  cases Glob.compile pattern <;> simp

theorem compileAll_eq_ok_iff {patterns : List String} {s : GlobSet} :
    compileAll patterns = .ok s ↔ patterns.mapM compilePattern = .ok s.globs := by
  rw [compileAll, map_eq_ok_iff]
  constructor
  · rintro ⟨globs, h, rfl⟩
    exact h
  · exact fun h => ⟨s.globs, h, rfl⟩

theorem exists_compileAll_iff {patterns : List String} :
    (∃ s, compileAll patterns = .ok s) ↔ ∀ pattern ∈ patterns, IsPattern pattern := by
  simp only [compileAll, exists_map_eq_ok_iff, exists_mapM_iff, compilePattern_eq_ok_iff,
    IsPattern]

/-- A compiled set of patterns. -/
theorem isMatch_iff {patterns : List String} {s : GlobSet} (h : compileAll patterns = .ok s)
    (value : String) : s.isMatch value = true ↔ MatchesSome patterns value := by
  have hglobs := compileAll_eq_ok_iff.mp h
  rw [isMatch, Bool.or_eq_true, List.isEmpty_iff, eq_nil_of_mapM_iff hglobs, List.any_eq_true]
  refine or_congr_right ?_
  simp only [mem_mapM_iff hglobs, compilePattern_eq_ok_iff, Matches]
  constructor
  · rintro ⟨g, ⟨pattern, hmem, hg⟩, hmatch⟩
    exact ⟨pattern, hmem, g, hg, hmatch⟩
  · rintro ⟨pattern, hmem, g, hg, hmatch⟩
    exact ⟨g, ⟨pattern, hmem, hg⟩, hmatch⟩

theorem exists_compile_iff {patterns : List String} :
    (∃ s, compile patterns = .ok s) ↔ ∀ pattern ∈ patterns, IsPattern pattern := by
  unfold compile
  split_ifs with hempty
  · rw [List.isEmpty_iff] at hempty
    simp [hempty]
  · rw [exists_map_eq_ok_iff, exists_compileAll_iff]

/-- An optional set of patterns: there is none where there are no patterns. -/
theorem compile_eq_ok_iff {patterns : List String} {s : Option GlobSet} :
    compile patterns = .ok s ↔
      patterns = [] ∧ s = none ∨
        patterns ≠ [] ∧ ∃ set, compileAll patterns = .ok set ∧ s = some set := by
  unfold compile
  split_ifs with hempty
  · rw [List.isEmpty_iff] at hempty
    simp [hempty, eq_comm]
  · rw [List.isEmpty_iff] at hempty
    rw [map_eq_ok_iff]
    simp [hempty, eq_comm]

/-- Patterns that a text has to match, if there are any. -/
theorem all_isMatch_iff {patterns : List String} {s : Option GlobSet}
    (h : compile patterns = .ok s) (value : String) :
    s.all (·.isMatch value) = true ↔ MatchesSome patterns value := by
  rcases compile_eq_ok_iff.mp h with ⟨rfl, rfl⟩ | ⟨-, set, hset, rfl⟩
  · exact iff_of_true rfl (Or.inl rfl)
  · exact isMatch_iff hset value

theorem isNone_iff {patterns : List String} {s : Option GlobSet}
    (h : compile patterns = .ok s) : s.isNone = patterns.isEmpty := by
  rcases compile_eq_ok_iff.mp h with ⟨rfl, rfl⟩ | ⟨hne, set, -, rfl⟩
  · rfl
  · cases patterns with
    | nil => exact absurd rfl hne
    | cons => rfl

end GlobSet

theorem KeyMap.isEmpty_iff {α : Type} {m : KeyMap α} :
    m.isEmpty = true ↔ ∀ k, m.get? k = none := by
  rw [isEmpty, List.isEmpty_iff, List.eq_nil_iff_forall_not_mem]
  simp only [Prod.forall, mem_toList_iff, Option.eq_none_iff_forall_ne_some, ne_eq]

namespace ResourceFilter

/-! ## Labels -/

theorem exists_compileLabels_iff {labels : KeyMap (List String)} :
    (∃ s, compileLabels labels = .ok s) ↔
      ∀ key patterns, labels.get? key = some patterns →
        ∀ pattern ∈ patterns, IsPattern pattern := by
  unfold compileLabels
  split_ifs with hempty
  · rw [KeyMap.isEmpty_iff] at hempty
    simp [hempty]
  · simp only [exists_map_eq_ok_iff, exists_mapM_iff, GlobSet.exists_compileAll_iff, Prod.forall,
      KeyMap.mem_toList_iff]

theorem isNone_compileLabels {labels : KeyMap (List String)}
    {s : Option (List (String × GlobSet))} (h : compileLabels labels = .ok s) :
    s.isNone = labels.isEmpty := by
  unfold compileLabels at h
  split_ifs at h with hempty
  · obtain rfl := Except.ok.inj h
    exact hempty.symm
  · obtain ⟨sets, -, rfl⟩ := map_eq_ok_iff.mp h
    exact (Bool.eq_false_iff.mpr hempty).symm

/-- The sets that the patterns of labels are compiled to. -/
theorem mem_compileLabels_iff {labels : KeyMap (List String)} {sets : List (String × GlobSet)}
    (h : (labels.toList.mapM fun e => (GlobSet.compileAll e.2).map fun s => (e.1, s)) = .ok sets)
    {key : String} {set : GlobSet} :
    (key, set) ∈ sets ↔
      ∃ patterns, labels.get? key = some patterns ∧ GlobSet.compileAll patterns = .ok set := by
  simp only [mem_mapM_iff h, map_eq_ok_iff, Prod.mk.injEq, Prod.exists, KeyMap.mem_toList_iff]
  constructor
  · rintro ⟨_, patterns, hget, _, hset, rfl, rfl⟩
    exact ⟨patterns, hget, hset⟩
  · rintro ⟨patterns, hget, hset⟩
    exact ⟨key, patterns, hget, set, hset, rfl, rfl⟩

/-- The labels that a rule lists have to be there with a value that matches. -/
theorem all_matchesLabels_iff {selectors : KeyMap (List String)}
    {s : Option (List (String × GlobSet))} (h : compileLabels selectors = .ok s)
    (labels : KeyMap String) :
    s.all (matchesLabels · labels) = true ↔
      ∀ key patterns, selectors.get? key = some patterns →
        ∃ value, labels.get? key = some value ∧ MatchesSome patterns value := by
  have hpatterns := exists_compileLabels_iff.mp ⟨s, h⟩
  unfold compileLabels at h
  split_ifs at h with hempty
  · obtain rfl := Except.ok.inj h
    rw [KeyMap.isEmpty_iff] at hempty
    simp [hempty]
  obtain ⟨sets, hsets, rfl⟩ := map_eq_ok_iff.mp h
  have hmem : ∀ {key set}, (key, set) ∈ sets ↔ _ := mem_compileLabels_iff hsets
  have hall : (sets.all fun e => (labels.get? e.1).any e.2.isMatch) = true ↔
      ∀ key patterns, selectors.get? key = some patterns →
        ∃ value, labels.get? key = some value ∧ MatchesSome patterns value := by
    simp only [List.all_eq_true, Prod.forall, Option.any_eq_true]
    constructor
    · intro hsel key patterns hget
      obtain ⟨set, hset⟩ := GlobSet.exists_compileAll_iff.mpr (hpatterns key patterns hget)
      obtain ⟨value, hvalue, hmatch⟩ := hsel key set (hmem.mpr ⟨patterns, hget, hset⟩)
      exact ⟨value, hvalue, (GlobSet.isMatch_iff hset value).mp hmatch⟩
    · intro hsel key set hin
      obtain ⟨patterns, hget, hset⟩ := hmem.mp hin
      obtain ⟨value, hvalue, hmatch⟩ := hsel key patterns hget
      exact ⟨value, hvalue, (GlobSet.isMatch_iff hset value).mpr hmatch⟩
  show (!labels.isEmpty && sets.all fun e => (labels.get? e.1).any e.2.isMatch) = true ↔ _
  rw [Bool.and_eq_true, hall]
  refine and_iff_right_of_imp fun hsel => ?_
  -- one label at least has to be there
  rw [Bool.not_eq_true', ← Bool.not_eq_true, KeyMap.isEmpty_iff]
  intro hnone
  rw [KeyMap.isEmpty_iff, not_forall] at hempty
  obtain ⟨key, hkey⟩ := hempty
  obtain ⟨patterns, hget⟩ := Option.ne_none_iff_exists'.mp hkey
  obtain ⟨value, hvalue, -⟩ := hsel key patterns hget
  rw [hnone] at hvalue
  cases hvalue

/-! ## Ports and containers -/

theorem compilePort_eq_ok_iff {rule : Rule} {port : Option Int} :
    compilePort rule = .ok port ↔
      rule.port = "" ∧ port = none ∨
        rule.port ≠ "" ∧ ∃ n, Text.parseInt .int32 rule.port = .ok n ∧ port = some n := by
  unfold compilePort
  split_ifs with hempty
  · simp [hempty, eq_comm]
  · cases Text.parseInt .int32 rule.port <;> simp [hempty, eq_comm]

theorem all_contains_iff {rule : Rule} {port : Option Int} (h : compilePort rule = .ok port)
    (ports : List Int) :
    port.all ports.contains = true ↔
      rule.port = "" ∨ ∃ n ∈ ports, Text.parseInt .int32 rule.port = .ok n := by
  rcases compilePort_eq_ok_iff.mp h with ⟨hempty, rfl⟩ | ⟨hne, n, hn, rfl⟩
  · exact iff_of_true rfl (Or.inl hempty)
  · rw [or_iff_right hne, hn]
    simp only [Option.all_some, List.contains_iff_mem, Except.ok.injEq]
    exact ⟨fun hin => ⟨n, hin, rfl⟩, fun ⟨_, hin, he⟩ => he ▸ hin⟩

/-- The first container with a matching image exposes the port of the rule, if it has one. -/
theorem matchesContainers_iff {patterns : List String} {set : GlobSet}
    (hset : GlobSet.compileAll patterns = .ok set) {rule : Rule} {port : Option Int}
    (hport : compilePort rule = .ok port) (containers : List Container) :
    matchesContainers set port containers = true ↔
      ∃ before c after, containers = before ++ c :: after ∧
        (∀ b ∈ before, ¬MatchesSome patterns b.image) ∧ MatchesSome patterns c.image ∧
          (rule.port = "" ∨ ∃ n ∈ c.ports, Text.parseInt .int32 rule.port = .ok n) := by
  have hfirst : matchesContainers set port containers = true ↔
      ∃ c, containers.find? (fun c => set.isMatch c.image) = some c ∧
        port.all c.ports.contains = true := by
    unfold matchesContainers
    cases containers.find? fun c => set.isMatch c.image <;> simp
  simp only [hfirst, List.find?_eq_some_iff_append, all_contains_iff hport, Bool.not_eq_true',
    ← Bool.not_eq_true, GlobSet.isMatch_iff hset]
  constructor
  · rintro ⟨c, ⟨hc, before, after, rfl, hbefore⟩, hexposed⟩
    exact ⟨before, c, after, rfl, hbefore, hc, hexposed⟩
  · rintro ⟨before, c, after, rfl, hbefore, hc, hexposed⟩
    exact ⟨c, ⟨hc, before, after, rfl, hbefore⟩, hexposed⟩

/-! ## Rules -/

/-- All rules but those for the API server have to select something. -/
theorem lacks_selectors_iff {rule : Rule} {images namespaces : Option GlobSet}
    {labels : Option (List (String × GlobSet))}
    (himages : GlobSet.compile rule.selectors.images = .ok images)
    (hnamespaces : GlobSet.compile rule.selectors.namespaces = .ok namespaces)
    (hlabels : compileLabels rule.selectors.labels = .ok labels) (kind : ResourceKind) :
    (kind ≠ .apiServer && images.isNone && namespaces.isNone && labels.isNone) = true ↔
      ¬(kind = .apiServer ∨ rule.selectors.isEmpty = false) := by
  rw [GlobSet.isNone_iff himages, GlobSet.isNone_iff hnamespaces, isNone_compileLabels hlabels,
    Selectors.isEmpty]
  simp only [Bool.and_eq_true, decide_eq_true_eq, not_or, Bool.not_eq_false, and_assoc]
  exact and_congr_right fun _ => and_congr_right fun _ => and_comm

/-- What a rule is compiled to. -/
theorem compile_eq_ok_iff {rule : Rule} {f : ResourceFilter} :
    compile rule = .ok f ↔
      ResourceKind.ofName? rule.selectors.resourceType = some f.kind ∧
      GlobSet.compile rule.selectors.images = .ok f.images ∧
      GlobSet.compile rule.selectors.namespaces = .ok f.namespaces ∧
      compileLabels rule.selectors.labels = .ok f.labels ∧
      (f.kind = .apiServer ∨ rule.selectors.isEmpty = false) ∧
      compilePort rule = .ok f.port := by
  unfold compile
  cases hkind : ResourceKind.ofName? rule.selectors.resourceType with
  | none => exact iff_of_false nofun nofun
  | some kind =>
    simp only [bind_eq_ok_iff]
    constructor
    · rintro ⟨_, hpure, images, himages, namespaces, hnamespaces, labels, hlabels, h⟩
      obtain rfl := Except.ok.inj hpure
      split at h
      · cases h
      · next hselective =>
        obtain ⟨port, hport, h⟩ := bind_eq_ok_iff.mp h
        obtain rfl := Except.ok.inj h
        rw [lacks_selectors_iff himages hnamespaces hlabels, not_not] at hselective
        exact ⟨rfl, himages, hnamespaces, hlabels, hselective, hport⟩
    · rintro ⟨hk, himages, hnamespaces, hlabels, hselective, hport⟩
      obtain rfl := Option.some.inj hk
      refine ⟨_, rfl, _, himages, _, hnamespaces, _, hlabels, ?_⟩
      rw [if_neg fun h => (lacks_selectors_iff himages hnamespaces hlabels _).mp h hselective]
      exact bind_eq_ok_iff.mpr ⟨_, hport, rfl⟩

end ResourceFilter

namespace ResourceKind

/-- The texts that name a kind. -/
theorem ofName?_eq_some_iff {s : String} {kind : ResourceKind} :
    ofName? s = some kind ↔ s = kind.name ∨ s = "" ∧ kind = .pod := by
  constructor
  · intro h
    unfold ofName? at h
    split at h <;> cases h <;> simp [name]
  · rintro (rfl | ⟨rfl, rfl⟩)
    · exact ofName?_name kind
    · rfl

theorem ofName?_eq_apiServer_iff {s : String} :
    ofName? s = some .apiServer ↔ s = "apiserver" := by
  simp [ofName?_eq_some_iff, name]

theorem exists_ofName?_iff {s : String} :
    (∃ kind, ofName? s = some kind) ↔ s ∈ ["", "pod", "service", "apiserver"] := by
  simp only [ofName?_eq_some_iff, List.mem_cons, List.not_mem_nil, or_false]
  constructor
  · rintro ⟨kind, rfl | ⟨rfl, -⟩⟩
    · cases kind <;> simp [name]
    · exact Or.inl rfl
  · rintro (rfl | rfl | rfl | rfl)
    · exact ⟨.pod, Or.inr ⟨rfl, rfl⟩⟩
    · exact ⟨.pod, Or.inl rfl⟩
    · exact ⟨.service, Or.inl rfl⟩
    · exact ⟨.apiServer, Or.inl rfl⟩

end ResourceKind

theorem Selectors.isEmpty_eq_false_iff {s : Selectors} :
    s.isEmpty = false ↔
      s.images ≠ [] ∨ s.namespaces ≠ [] ∨ ∃ key patterns, s.labels.get? key = some patterns := by
  rw [isEmpty, ← Bool.not_eq_true, Bool.and_eq_true, Bool.and_eq_true, KeyMap.isEmpty_iff,
    List.isEmpty_iff, List.isEmpty_iff]
  simp only [not_and_or, not_forall, ← ne_eq, Option.ne_none_iff_exists', or_assoc]
  exact or_congr_right or_comm

namespace Rule

/-- The selectors and the port of a rule have no fault. -/
structure IsFaultless (rule : Rule) : Prop where
  kind : rule.selectors.resourceType ∈ ["", "pod", "service", "apiserver"]
  images : ∀ pattern ∈ rule.selectors.images, IsPattern pattern
  namespaces : ∀ pattern ∈ rule.selectors.namespaces, IsPattern pattern
  labels : ∀ key patterns, rule.selectors.labels.get? key = some patterns →
    ∀ pattern ∈ patterns, IsPattern pattern
  /-- Rules for the API server need no selectors. -/
  selective : rule.selectors.resourceType = "apiserver" ∨ rule.selectors.images ≠ [] ∨
    rule.selectors.namespaces ≠ [] ∨ ∃ key patterns, rule.selectors.labels.get? key = some patterns
  port : rule.port = "" ∨ ∃ n, Text.parseInt .int32 rule.port = .ok n

/-- Some container has an image that matches, and the first one that does exposes the port of the
    rule, if it has one. -/
def ExposedBy (rule : Rule) (containers : List Container) : Prop :=
  ∃ before c after, containers = before ++ c :: after ∧
    (∀ b ∈ before, ¬MatchesSome rule.selectors.images b.image) ∧
    MatchesSome rule.selectors.images c.image ∧
    (rule.port = "" ∨ ∃ n ∈ c.ports, Text.parseInt .int32 rule.port = .ok n)

/-- The resources that a rule selects. -/
structure Selects (rule : Rule) (r : Resource) : Prop where
  kind : ResourceKind.ofName? rule.selectors.resourceType = some r.kind
  labels : ∀ key patterns, rule.selectors.labels.get? key = some patterns →
    ∃ value, r.object.labels.get? key = some value ∧ MatchesSome patterns value
  namespaces : MatchesSome rule.selectors.namespaces r.object.ns
  images : rule.selectors.images = [] ∨ rule.ExposedBy r.containers

end Rule

namespace ResourceFilter

theorem exists_compilePort_iff {rule : Rule} :
    (∃ port, compilePort rule = .ok port) ↔
      rule.port = "" ∨ ∃ n, Text.parseInt .int32 rule.port = .ok n := by
  unfold compilePort
  split_ifs with hempty
  · simp [hempty]
  · cases Text.parseInt .int32 rule.port <;> simp [hempty]

/-- The rules that can be compiled. -/
theorem exists_compile_iff {rule : Rule} : (∃ f, compile rule = .ok f) ↔ rule.IsFaultless := by
  constructor
  · rintro ⟨f, h⟩
    obtain ⟨hkind, himages, hnamespaces, hlabels, hselective, hport⟩ := compile_eq_ok_iff.mp h
    have hapi : f.kind = .apiServer → rule.selectors.resourceType = "apiserver" := fun he =>
      ResourceKind.ofName?_eq_apiServer_iff.mp (he ▸ hkind)
    exact
      { kind := ResourceKind.exists_ofName?_iff.mp ⟨_, hkind⟩
        images := GlobSet.exists_compile_iff.mp ⟨_, himages⟩
        namespaces := GlobSet.exists_compile_iff.mp ⟨_, hnamespaces⟩
        labels := exists_compileLabels_iff.mp ⟨_, hlabels⟩
        selective := hselective.imp hapi Selectors.isEmpty_eq_false_iff.mp
        port := exists_compilePort_iff.mp ⟨_, hport⟩ }
  · intro h
    obtain ⟨kind, hkind⟩ := ResourceKind.exists_ofName?_iff.mpr h.kind
    obtain ⟨images, himages⟩ := GlobSet.exists_compile_iff.mpr h.images
    obtain ⟨namespaces, hnamespaces⟩ := GlobSet.exists_compile_iff.mpr h.namespaces
    obtain ⟨labels, hlabels⟩ := exists_compileLabels_iff.mpr h.labels
    obtain ⟨port, hport⟩ := exists_compilePort_iff.mpr h.port
    have hapi : rule.selectors.resourceType = "apiserver" → kind = .apiServer := fun he =>
      Option.some.inj (hkind.symm.trans (ResourceKind.ofName?_eq_apiServer_iff.mpr he))
    have hselective : kind = .apiServer ∨ rule.selectors.isEmpty = false :=
      h.selective.imp hapi Selectors.isEmpty_eq_false_iff.mpr
    exact ⟨⟨kind, images, namespaces, labels, port⟩,
      compile_eq_ok_iff.mpr ⟨hkind, himages, hnamespaces, hlabels, hselective, hport⟩⟩

/-- The resources that a compiled rule matches. -/
theorem isMatch_iff {rule : Rule} {f : ResourceFilter} (h : compile rule = .ok f) (r : Resource) :
    f.isMatch r = true ↔ rule.Selects r := by
  obtain ⟨hkind, himages, hnamespaces, hlabels, -, hport⟩ := compile_eq_ok_iff.mp h
  have hcontainers : f.images.all (matchesContainers · f.port r.containers) = true ↔
      rule.selectors.images = [] ∨ rule.ExposedBy r.containers := by
    rcases GlobSet.compile_eq_ok_iff.mp himages with ⟨hempty, hnone⟩ | ⟨hne, set, hset, hsome⟩
    · rw [hnone]
      exact iff_of_true rfl (Or.inl hempty)
    · rw [hsome, or_iff_right hne]
      exact matchesContainers_iff hset hport r.containers
  have hsame : r.kind = f.kind ↔
      ResourceKind.ofName? rule.selectors.resourceType = some r.kind := by
    rw [hkind, Option.some_inj, eq_comm]
  simp only [isMatch, Bool.and_eq_true, beq_iff_eq, hsame, all_matchesLabels_iff hlabels,
    GlobSet.all_isMatch_iff hnamespaces, hcontainers]
  constructor
  · rintro ⟨⟨⟨hk, hl⟩, hn⟩, hc⟩
    exact ⟨hk, hl, hn, hc⟩
  · intro hsel
    exact ⟨⟨⟨hsel.kind, hsel.labels⟩, hsel.namespaces⟩, hsel.images⟩

/-- A rule can be compiled exactly if its kind is empty or one of the three, all its patterns are
    globs, it selects something or is for the API server, and its port is empty or a number of 32
    bits. The filter then matches exactly the resources of its kind that have all its labels, each
    with a value that matches one of the patterns or any if it has none, whose namespace matches
    one of the patterns if there are any, and, if it has patterns of images, that have a container
    whose image matches, the first of which exposes the port of the rule if it has one. -/
theorem compiles_and_matches (rule : Rule) :
    ((∃ f, compile rule = .ok f) ↔ rule.IsFaultless) ∧
      ∀ f, compile rule = .ok f → ∀ r, f.isMatch r = true ↔ rule.Selects r :=
  ⟨exists_compile_iff, fun _ => isMatch_iff⟩

end ResourceFilter

end ScrapeDiscovery

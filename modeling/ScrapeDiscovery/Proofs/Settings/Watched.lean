import Mathlib.Data.Option.Basic
import ScrapeDiscovery.Proofs.Cluster.Knowledge
import ScrapeDiscovery.Proofs.Settings.History

/-!
# Sources of rules follow the watched objects

Config maps and secrets are watched by themselves, and both watches write to one map of
sources. A source is named after the kind and the name of its object, so the two never
write to the same place, and a list of all objects of one kind tells which sources of
this kind have vanished. In whatever order the events of the two watches come, the
sources are the marked objects that the watches know of.

Results:
* `get?_runtime_update`, `get?_runtime_resync`: the sources after one object, and after a list.
* `Mirrors.takeEvent`: the sources after an event of either watch.
* `runtime_mirrors_knowledge`: the sources after events in any order, and what a list removes.
-/

namespace ScrapeDiscovery

open Cluster

namespace Cluster

/-- A config map or a secret: its metadata and its data. -/
structure SourceObject where
  object : ObjectMeta
  data : KeyMap String
  deriving DecidableEq, Repr

namespace SourceObject

/-- The name of an object. The objects of a watch are in one namespace. -/
def name (o : SourceObject) : String := o.object.name

/-- The source that an object is. -/
def source (kind : SourceKind) (o : SourceObject) : RuleSource := sourceOf kind o.object o.data

/-- Whether an object is marked as a source. -/
def isMarked (o : SourceObject) : Bool := o.object.annotations.get? RuleSource.marker == some "true"

end SourceObject

end Cluster

namespace RuleSource

theorem nameOf_injective (kind : String) : Function.Injective (nameOf kind) := fun _ _ h =>
  (String.append_right_inj _).mp h

/-- Whatever begins like the name of a source of a kind is one. -/
theorem kindPrefix_prefix_iff {kind k : String} :
    (kindPrefix kind).toList <+: k.toList ↔ ∃ name, k = nameOf kind name := by
  constructor
  · rintro ⟨rest, h⟩
    refine ⟨String.ofList rest, String.toList_inj.mp ?_⟩
    rw [nameOf, String.toList_append, String.toList_ofList, h]
  · rintro ⟨name, rfl⟩
    rw [nameOf, String.toList_append]
    exact List.prefix_append _ _

/-- The name of a source tells the kind and the name of its object. -/
theorem nameOf_inj {kind kind' : SourceKind} {a b : String} :
    nameOf kind.name a = nameOf kind'.name b ↔ kind = kind' ∧ a = b := by
  constructor
  · intro h
    -- the names of the two kinds begin with different letters
    have hhead := congrArg (·.toList.head?) h
    have hkind : kind = kind' := by
      cases kind <;> cases kind' <;> simp [nameOf, kindPrefix, SourceKind.name] at hhead ⊢
    subst hkind
    exact ⟨rfl, nameOf_injective _ h⟩
  · rintro ⟨rfl, rfl⟩
    rfl

end RuleSource

namespace LiveSettings

/-! ## The sources after one object, and after a list -/

/-- The rules that a version of an object gives to its source. -/
def given (s : RuleSource) : Option (List Rule) := if s.isSource then some s.rules else none

theorem get?_runtime_update (l : LiveSettings) (s : RuleSource) (name : String) :
    (l.update s).runtime.get? name = if name = s.name then given s else l.runtime.get? name := by
  unfold update given
  split
  · exact KeyMap.get?_insert ..
  · exact get?_runtime_delete ..

theorem get?_runtime_updates (l : LiveSettings) (ss : List RuleSource) (name : String) :
    (ss.foldl update l).runtime.get? name =
      (listed RuleSource.name ss name).elim (l.runtime.get? name) given := by
  induction ss using List.reverseRecOn with
  | nil => rfl
  | append_singleton ss s ih =>
    rw [List.foldl_append, List.foldl_cons, List.foldl_nil, get?_runtime_update, listed_concat,
      Function.update_apply, ih]
    split_ifs <;> rfl

theorem get?_runtime_deletes (l : LiveSettings) (names : List String) (name : String) :
    (names.foldl delete l).runtime.get? name =
      if name ∈ names then none else l.runtime.get? name := by
  induction names generalizing l with
  | nil => rfl
  | cons n names ih =>
    rw [List.foldl_cons, ih, get?_runtime_delete]
    by_cases hn : name = n
    · simp [hn]
    · simp [hn]

theorem mem_vanished {l : LiveSettings} {kind : String} {present : List RuleSource}
    {name : String} :
    name ∈ l.vanished kind present ↔
      (∃ rules, l.runtime.get? name = some rules) ∧
        (RuleSource.kindPrefix kind).toList <+: name.toList ∧
          listed RuleSource.name present name = none := by
  simp [vanished, sources, KeyMap.mem_keys_iff, listed_eq_none_iff]

/-- The sources after a list of all objects of a kind: those in the list by their last versions,
    and all others but the ones that have vanished. -/
theorem get?_runtime_resync (l : LiveSettings) (kind : String) (present : List RuleSource)
    (name : String) :
    (l.resync kind present).runtime.get? name =
      (listed RuleSource.name present name).elim
        (if (RuleSource.kindPrefix kind).toList <+: name.toList then none
          else l.runtime.get? name)
        given := by
  rw [resync, get?_runtime_updates, get?_runtime_deletes]
  cases hlast : listed RuleSource.name present name with
  | some s => rfl
  | none =>
    rw [Option.elim_none, Option.elim_none]
    cases hname : l.runtime.get? name with
    | none => rw [ite_self, ite_self]
    | some rules =>
      refine if_congr ?_ rfl rfl
      rw [mem_vanished, hlast]
      exact ⟨fun h => h.2.1, fun h => ⟨⟨rules, hname⟩, h, rfl⟩⟩

/-! ## Events of the two watches -/

/-- Takes in events of the watches of both kinds, in the order in which they come. -/
def takeEvents (l : LiveSettings) (es : List (SourceKind × ObjectEvent SourceObject)) :
    LiveSettings :=
  es.foldl (fun l e => l.takeEvent e.1 (e.2.map (·.source e.1))) l

/-- What the watch of a kind knows after events of both watches. -/
def known (kind : SourceKind) (es : List (SourceKind × ObjectEvent SourceObject)) :
    Knowledge String SourceObject :=
  .run SourceObject.name (es.filterMap fun e => if e.1 = kind then some e.2 else none)

/-- What the source of an object has if this version of it is known, or none. -/
def rulesOf (kind : SourceKind) (known : Option SourceObject) : Option (List Rule) :=
  (known.filter (·.isMarked)).map fun o => (o.source kind).rules

theorem rulesOf_eq_some_iff {kind : SourceKind} {known : Option SourceObject}
    {rules : List Rule} :
    rulesOf kind known = some rules ↔
      ∃ o, known = some o ∧ o.isMarked = true ∧ rules = (o.source kind).rules := by
  simp only [rulesOf, Option.map_eq_some_iff, Option.filter_eq_some_iff, and_assoc]
  simp only [eq_comm (b := rules)]

theorem rulesOf_eq_none_iff {kind : SourceKind} {known : Option SourceObject} :
    rulesOf kind known = none ↔ ∀ o, known = some o → o.isMarked = false := by
  simp only [rulesOf, Option.map_eq_none_iff, Option.filter_eq_none_iff, Bool.not_eq_true]

theorem given_source (kind : SourceKind) (o : SourceObject) :
    given (o.source kind) = rulesOf kind (some o) := by
  unfold given rulesOf
  rw [Option.filter_some]
  show (if o.isMarked then _ else _) = _
  split <;> rfl

/-- An event sets the sources of the objects that it is about to what is known of them then. -/
theorem get?_runtime_takeEvent (l : LiveSettings) {v : Knowledge String SourceObject}
    {kind : SourceKind}
    (hv : ∀ name, l.runtime.get? (RuleSource.nameOf kind.name name) = rulesOf kind (v name))
    (e : ObjectEvent SourceObject) (name : String) :
    (l.takeEvent kind (e.map (·.source kind))).runtime.get? (RuleSource.nameOf kind.name name) =
      rulesOf kind (v.take SourceObject.name e name) := by
  have hinj := RuleSource.nameOf_injective kind.name
  have hname : ∀ o : SourceObject, (o.source kind).name = RuleSource.nameOf kind.name o.name :=
    fun _ => rfl
  -- what is known of one object is set where its source has its name
  have hset : ∀ (o : SourceObject) (version : Option SourceObject),
      (if RuleSource.nameOf kind.name name = (o.source kind).name then rulesOf kind version
        else l.runtime.get? (RuleSource.nameOf kind.name name)) =
        rulesOf kind (Function.update v o.name version name) := by
    intro o version
    rw [Function.update_apply, hv, hname]
    by_cases hn : name = o.name
    · rw [if_pos hn, if_pos (congrArg _ hn)]
    · rw [if_neg hn, if_neg fun he => hn (hinj he)]
  cases e with
  | applied o =>
    refine (get?_runtime_update l (o.source kind) _).trans ?_
    rw [given_source]
    exact hset o (some o)
  | deleted o => exact (get?_runtime_delete l (o.source kind).name _).trans (hset o none)
  | restarted os =>
    have hlisted : listed RuleSource.name (os.map (·.source kind))
        (RuleSource.nameOf kind.name name) =
          (listed SourceObject.name os name).map (·.source kind) :=
      listed_map hinj hname os name
    refine (get?_runtime_resync l kind.name (os.map (·.source kind)) _).trans ?_
    rw [hlisted, if_pos (RuleSource.kindPrefix_prefix_iff.mpr ⟨name, rfl⟩), Knowledge.take]
    cases listed SourceObject.name os name with
    | none => rfl
    | some o => exact given_source kind o

/-- An event leaves everything alone that is not named after an object of its kind. -/
theorem get?_runtime_takeEvent_of_ne (l : LiveSettings) {kind : SourceKind}
    (e : ObjectEvent SourceObject) {k : String}
    (hk : ∀ name, k ≠ RuleSource.nameOf kind.name name) :
    (l.takeEvent kind (e.map (·.source kind))).runtime.get? k = l.runtime.get? k := by
  have hother : ∀ o : SourceObject, k ≠ (o.source kind).name := fun o => hk o.name
  cases e with
  | applied o => exact (get?_runtime_update l _ _).trans (if_neg (hother o))
  | deleted o => exact (get?_runtime_delete l _ _).trans (if_neg (hother o))
  | restarted os =>
    have hnone : listed RuleSource.name (os.map (·.source kind)) k = none := by
      rw [listed_eq_none_iff]
      rintro _ hs he
      obtain ⟨o, -, rfl⟩ := List.mem_map.mp hs
      exact hother o he.symm
    have hprefix : ¬(RuleSource.kindPrefix kind.name).toList <+: k.toList := by
      rw [RuleSource.kindPrefix_prefix_iff]
      rintro ⟨name, he⟩
      exact hk name he
    refine (get?_runtime_resync l kind.name (os.map (·.source kind)) _).trans ?_
    rw [hnone, Option.elim_none, if_neg hprefix]

/-- The sources are those of the marked objects that are known, with the rules of their latest
    versions. -/
structure Mirrors (l : LiveSettings) (v : SourceKind → Knowledge String SourceObject) : Prop where
  source : ∀ kind name, l.runtime.get? (RuleSource.nameOf kind.name name) =
    rulesOf kind (v kind name)
  named : ∀ k rules, l.runtime.get? k = some rules →
    ∃ kind name, k = RuleSource.nameOf (SourceKind.name kind) name

/-- The sources after an event of either watch. -/
theorem Mirrors.takeEvent {l : LiveSettings} {v : SourceKind → Knowledge String SourceObject}
    (h : l.Mirrors v) (kind : SourceKind) (e : ObjectEvent SourceObject) :
    (l.takeEvent kind (e.map (·.source kind))).Mirrors
      (Function.update v kind ((v kind).take SourceObject.name e)) := by
  refine ⟨fun kind' name => ?_, fun k rules hk => ?_⟩
  · by_cases hkind : kind' = kind
    · subst hkind
      rw [Function.update_self]
      exact get?_runtime_takeEvent l (h.source kind') e name
    · rw [Function.update_of_ne hkind, ← h.source kind']
      exact get?_runtime_takeEvent_of_ne l e fun _ he => hkind (RuleSource.nameOf_inj.mp he).1
  · by_cases hnamed : ∃ name, k = RuleSource.nameOf kind.name name
    · exact ⟨kind, hnamed⟩
    · rw [get?_runtime_takeEvent_of_ne l e (not_exists.mp hnamed)] at hk
      exact h.named k rules hk

theorem known_concat (es : List (SourceKind × ObjectEvent SourceObject))
    (e : SourceKind × ObjectEvent SourceObject) :
    (fun kind => known kind (es ++ [e])) =
      Function.update (fun kind => known kind es) e.1
        ((known e.1 es).take SourceObject.name e.2) := by
  funext kind
  rw [known, List.filterMap_append]
  by_cases hkind : kind = e.1
  · subst hkind
    rw [Function.update_self, List.filterMap_cons, if_pos rfl]
    exact Knowledge.run_concat _ _ _
  · rw [Function.update_of_ne hkind, List.filterMap_cons, if_neg (Ne.symm hkind)]
    exact congrArg _ (List.append_nil _)

/-- The sources after events of the two watches in any order. -/
theorem mirrors_takeEvents (wired : Settings)
    (es : List (SourceKind × ObjectEvent SourceObject)) :
    ((start wired).takeEvents es).Mirrors fun kind => known kind es := by
  induction es using List.reverseRecOn with
  | nil => exact ⟨fun _ _ => rfl, fun _ _ => nofun⟩
  | append_singleton es e ih =>
    rw [takeEvents, List.foldl_append, known_concat]
    exact ih.takeEvent e.1 e.2

/-- After events of the two watches, in whatever order they come, the sources of rules are the
    marked ones among the objects that the watches know of, each under its kind and name and with
    the rules of its latest version. A list of all objects of a kind, taken up at any time, removes
    exactly the sources of this kind whose objects are missing from the list or no longer marked
    there, and leaves the sources of the other kind alone. -/
theorem runtime_mirrors_knowledge (wired : Settings)
    (es : List (SourceKind × ObjectEvent SourceObject)) :
    let l := (start wired).takeEvents es
    (∀ k rules, l.runtime.get? k = some rules ↔
      ∃ kind name o, k = RuleSource.nameOf (SourceKind.name kind) name ∧
        known kind es name = some o ∧ o.isMarked = true ∧ rules = (o.source kind).rules) ∧
    ∀ kind (os : List SourceObject),
      let l' := l.resync kind.name (os.map (·.source kind))
      (∀ k, l.runtime.contains k = true → (l'.runtime.contains k = false ↔
        ∃ name, k = RuleSource.nameOf kind.name name ∧
          ∀ o, listed SourceObject.name os name = some o → o.isMarked = false)) ∧
      ∀ kind' name, kind' ≠ kind →
        l'.runtime.get? (RuleSource.nameOf kind'.name name) =
          l.runtime.get? (RuleSource.nameOf kind'.name name) := by
  intro l
  have hm : l.Mirrors fun kind => known kind es := mirrors_takeEvents wired es
  refine ⟨fun k rules => ⟨fun hk => ?_, ?_⟩,
    fun kind os => ⟨fun k hk => ?_, fun kind' name hne => ?_⟩⟩
  · obtain ⟨kind, name, rfl⟩ := hm.named k rules hk
    rw [hm.source, rulesOf_eq_some_iff] at hk
    obtain ⟨o, ho⟩ := hk
    exact ⟨kind, name, o, rfl, ho⟩
  · rintro ⟨kind, name, o, rfl, ho⟩
    rw [hm.source, rulesOf_eq_some_iff]
    exact ⟨o, ho⟩
  · by_cases hnamed : ∃ name, k = RuleSource.nameOf kind.name name
    · obtain ⟨name, rfl⟩ := hnamed
      have hlisted := get?_runtime_takeEvent l (hm.source kind) (.restarted os) name
      rw [KeyMap.contains, Option.isSome_eq_false_iff, Option.isNone_iff_eq_none]
      refine (Eq.congr_left hlisted).trans (rulesOf_eq_none_iff.trans ⟨fun h => ⟨name, rfl, h⟩, ?_⟩)
      rintro ⟨name', he, h⟩
      obtain rfl := RuleSource.nameOf_injective _ he
      exact h
    · have hkept := get?_runtime_takeEvent_of_ne l (.restarted os) (not_exists.mp hnamed)
      have hstays : (l.resync kind.name (os.map (·.source kind))).runtime.contains k = true :=
        (congrArg Option.isSome hkept).trans hk
      rw [hstays]
      constructor
      · exact fun h => absurd h.symm Bool.false_ne_true
      · rintro ⟨name, he, -⟩
        exact absurd ⟨name, he⟩ hnamed
  · exact get?_runtime_takeEvent_of_ne l (.restarted os) fun _ he =>
      hne (RuleSource.nameOf_inj.mp he).1

/-- A config map and two secrets are sources, two of them with the same name. Of the secrets one is
    then no longer marked and one is missing from a list: only the config map stays. -/
theorem only_configMap_left :
    let marked : String → SourceObject := fun name =>
      ⟨{ name, annotations := KeyMap.ofList [(RuleSource.marker, "true")] },
        KeyMap.ofList [("rules", "plugins: [\x7bname: r, type: telegraf/redis\x7d]")]⟩
    let es : List (SourceKind × ObjectEvent SourceObject) :=
      [(.secret, .applied (marked "a")), (.configMap, .restarted [marked "a"]),
        (.secret, .applied (marked "b"))]
    let l := (start {}).takeEvents es
    let l' := l.resync SourceKind.secret.name
      ([⟨{ name := "a" }, ∅⟩].map (SourceObject.source .secret))
    l.sources = ["configmap/a", "secret/a", "secret/b"] ∧
      l'.runtime.contains "secret/a" = false ∧ l'.runtime.contains "secret/b" = false ∧
      (l.runtime.get? "configmap/a").map (·.map (·.name)) = some ["r"] ∧
      l'.runtime.get? "configmap/a" = l.runtime.get? "configmap/a" := by
  intro marked es l l'
  have hsources : l.sources = ["configmap/a", "secret/a", "secret/b"] := by decide +kernel
  have hknown : l.runtime.contains "secret/a" = true ∧ l.runtime.contains "secret/b" = true := by
    decide +kernel
  obtain ⟨hremoved, hkept⟩ := (runtime_mirrors_knowledge {} es).2 .secret [⟨{ name := "a" }, ∅⟩]
  have hrule : (l.runtime.get? "configmap/a").map (·.map (·.name)) = some ["r"] := by
    decide +kernel
  refine ⟨hsources, (hremoved _ hknown.1).mpr ⟨"a", rfl, ?_⟩,
    (hremoved _ hknown.2).mpr ⟨"b", rfl, ?_⟩, hrule, hkept .configMap "a" nofun⟩
  · decide
  · decide

end LiveSettings

end ScrapeDiscovery

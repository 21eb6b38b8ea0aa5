import Mathlib.Data.List.Induction
import ScrapeDiscovery.Settings.Live

/-!
# Settings in effect follow the history of writes

Settings of the document are replaced, sources of rules come, change and go, and
now and then somebody asks what is in effect. The answer is worked out only if
something was written since the last one, and then kept. What is answered depends
all the same on nothing but the history: the document that was written last, and
for each source the last that happened to it. A source takes part if that was an
update of a marked object, with the rules of those of its entries that can be read.

Blocks of the earlier format in the document that a handler starts with are
answered until something is written, so answers are compared by their rules and
the five other settings.

Results:
* `UpToDate.agrees_current`: an answer agrees with what is combined at that moment.
* `reflects_run`: what settings are after a history, by induction on it.
* `current_run`: what is answered after a history, and which histories differ in nothing
  that counts.
-/

namespace ScrapeDiscovery

/-! ## Settings without the blocks of the earlier format -/

/-- Settings with the same rules and the same five other settings. -/
structure Settings.Agrees (s t : Settings) : Prop where
  rules : s.rules = t.rules
  interval : s.interval = t.interval
  annotationPrefix : s.annotationPrefix = t.annotationPrefix
  annotationExcludes : s.annotationExcludes = t.annotationExcludes
  runtimeRules : s.runtimeRules = t.runtimeRules
  annotationsDisabled : s.annotationsDisabled = t.annotationsDisabled

namespace Settings

theorem Agrees.refl (s : Settings) : s.Agrees s := ⟨rfl, rfl, rfl, rfl, rfl, rfl⟩

theorem Agrees.symm {s t : Settings} (h : s.Agrees t) : t.Agrees s where
  rules := h.rules.symm
  interval := h.interval.symm
  annotationPrefix := h.annotationPrefix.symm
  annotationExcludes := h.annotationExcludes.symm
  runtimeRules := h.runtimeRules.symm
  annotationsDisabled := h.annotationsDisabled.symm

theorem Agrees.trans {s t u : Settings} (h : s.Agrees t) (h' : t.Agrees u) : s.Agrees u where
  rules := h.rules.trans h'.rules
  interval := h.interval.trans h'.interval
  annotationPrefix := h.annotationPrefix.trans h'.annotationPrefix
  annotationExcludes := h.annotationExcludes.trans h'.annotationExcludes
  runtimeRules := h.runtimeRules.trans h'.runtimeRules
  annotationsDisabled := h.annotationsDisabled.trans h'.annotationsDisabled

theorem agrees_combine (wired : Settings) (runtime : KeyMap (List Rule)) :
    (wired.combine runtime).Agrees { wired with rules := wired.rules ++ runtime.values.flatten } :=
  ⟨rfl, rfl, rfl, rfl, rfl, rfl⟩

theorem agrees_combine_empty (wired : Settings) : wired.Agrees (wired.combine ∅) where
  rules := (List.append_nil _).symm
  interval := rfl
  annotationPrefix := rfl
  annotationExcludes := rfl
  runtimeRules := rfl
  annotationsDisabled := rfl

end Settings

/-- The values one after the other, each found under its key. -/
theorem KeyMap.flatten_values {α : Type} (m : KeyMap (List α)) :
    m.values.flatten = m.keys.flatMap fun k => (m.get? k).getD [] := by
  have hvalue : ∀ e ∈ m.toList, e.2 = (m.get? e.1).getD [] := fun e he => by
    rw [KeyMap.mem_toList_iff.mp he, Option.getD_some]
  rw [KeyMap.values, KeyMap.keys, List.flatMap, List.map_map]
  exact congrArg List.flatten (List.map_congr_left hvalue)

/-- The rules of the entries that can be read, in the order of their keys. -/
theorem RuleSource.rules_eq (s : RuleSource) :
    s.rules = (s.data.toList.filterMap fun e => (Settings.loadRules e.2).toOption).flatten := by
  rw [RuleSource.rules, KeyMap.values, List.flatMap_map]
  induction s.data.toList with
  | nil => rfl
  | cons e es ih =>
    rw [List.flatMap_cons, List.filterMap_cons, ih]
    cases (Settings.loadRules e.2).toOption <;> rfl

namespace LiveSettings

/-! ## Answers are up to date -/

/-- What was last handed out is what there is, unless something was written since. -/
def UpToDate (l : LiveSettings) : Prop :=
  l.dirty = false → l.combined.Agrees (l.wired.combine l.runtime)

theorem upToDate_start (wired : Settings) : (start wired).UpToDate := fun _ =>
  Settings.agrees_combine_empty wired

theorem UpToDate.of_dirty {l : LiveSettings} (h : l.dirty = true) : l.UpToDate := fun hclean => by
  rw [h] at hclean
  cases hclean

theorem UpToDate.current {l : LiveSettings} (h : l.UpToDate) : l.current.2.UpToDate := by
  unfold LiveSettings.current
  split
  · exact fun _ => Settings.Agrees.refl _
  · exact h

/-- An answer agrees with what is combined at that moment. -/
theorem UpToDate.agrees_current {l : LiveSettings} (h : l.UpToDate) :
    l.current.1.1.Agrees (l.wired.combine l.runtime) := by
  unfold LiveSettings.current
  split
  · exact Settings.Agrees.refl _
  · next hclean => exact h (Bool.eq_false_iff.mpr hclean)

@[simp] theorem wired_current (l : LiveSettings) : l.current.2.wired = l.wired := by
  unfold current
  split <;> rfl

@[simp] theorem runtime_current (l : LiveSettings) : l.current.2.runtime = l.runtime := by
  unfold current
  split <;> rfl

@[simp] theorem dirty_current (l : LiveSettings) : l.current.2.dirty = false := by
  unfold current
  split
  · rfl
  · next hclean => exact Bool.eq_false_iff.mpr hclean

@[simp] theorem combined_current (l : LiveSettings) : l.current.2.combined = l.current.1.1 := by
  unfold current
  split <;> rfl

@[simp] theorem wired_delete (l : LiveSettings) (name : String) :
    (l.delete name).wired = l.wired := by
  unfold delete
  split <;> rfl

theorem get?_runtime_delete (l : LiveSettings) (name name' : String) :
    (l.delete name).runtime.get? name' =
      if name' = name then none else l.runtime.get? name' := by
  unfold delete
  split
  · exact KeyMap.get?_erase ..
  · next hmissing =>
    have hnone : l.runtime.get? name = none := by
      simpa [KeyMap.contains] using hmissing
    split
    · next heq => rw [heq, hnone]
    · rfl

theorem UpToDate.delete {l : LiveSettings} (h : l.UpToDate) (name : String) :
    (l.delete name).UpToDate := by
  unfold LiveSettings.delete
  split
  · exact .of_dirty rfl
  · exact h

/-! ## Histories -/

/-- What happens to settings in effect. -/
inductive Operation where
  | setWired (wired : Settings)
  | update (s : RuleSource)
  | delete (name : String)
  | current
  deriving DecidableEq, Repr

/-- Lets one operation happen (`ConfigHandler`). -/
def step (l : LiveSettings) : Operation → LiveSettings
  | .setWired wired => l.setWired wired
  | .update s => l.update s
  | .delete name => l.delete name
  | .current => l.current.2

/-- Lets operations happen one after the other. -/
def run (l : LiveSettings) (ops : List Operation) : LiveSettings := ops.foldl step l

/-- The settings of the document that an operation writes. -/
def Operation.wired? : Operation → Option Settings
  | .setWired wired => some wired
  | _ => none

/-- The name of the source that an operation is about. -/
def Operation.source? : Operation → Option String
  | .update s => some s.name
  | .delete name => some name
  | _ => none

/-- The source that has rules after an operation about it. -/
def Operation.contributor? : Operation → Option RuleSource
  | .update s => if s.isSource then some s else none
  | _ => none

/-- What was written as settings of the document. -/
def documents (ops : List Operation) : List Settings := ops.filterMap Operation.wired?

/-- What happened to the source of a name. -/
def about (ops : List Operation) (name : String) : List Operation :=
  ops.filter fun op => op.source? = some name

/-- The settings of the document that were written last, or else those at the start. -/
def lastWired (wired : Settings) (ops : List Operation) : Settings :=
  (documents ops).getLast?.getD wired

/-- The object of the last operation about a source, if that left it with rules. -/
def contributor? (ops : List Operation) (name : String) : Option RuleSource :=
  (about ops name).getLast?.bind Operation.contributor?

theorem lastWired_concat (wired : Settings) (ops : List Operation) (op : Operation) :
    lastWired wired (ops ++ [op]) = op.wired?.getD (lastWired wired ops) := by
  rw [lastWired, documents, List.filterMap_append, List.getLast?_append, List.filterMap_cons,
    List.filterMap_nil]
  cases op.wired? <;> rfl

theorem contributor?_concat (ops : List Operation) (op : Operation) (name : String) :
    contributor? (ops ++ [op]) name =
      if op.source? = some name then op.contributor? else contributor? ops name := by
  rw [contributor?, about, List.filter_append, List.getLast?_append]
  split
  · next habout => simp [habout]
  · next hother => simp [hother, contributor?, about]

/-! ## What settings are after a history -/

/-- What settings are after a history that began with the settings of a document. -/
structure Reflects (l : LiveSettings) (wired : Settings) (ops : List Operation) : Prop where
  wired_eq : l.wired = lastWired wired ops
  source : ∀ name, l.runtime.get? name = (contributor? ops name).map RuleSource.rules
  upToDate : l.UpToDate

theorem Reflects.step {l : LiveSettings} {wired : Settings} {ops : List Operation}
    (h : l.Reflects wired ops) (op : Operation) : (l.step op).Reflects wired (ops ++ [op]) := by
  -- a source that is gone after the operation has no rules, every other source has those it had
  have hgone : ∀ name, op.source? = some name → op.contributor? = none → ∀ name',
      (l.delete name).runtime.get? name' =
        (contributor? (ops ++ [op]) name').map RuleSource.rules := by
    intro name habout hnone name'
    rw [get?_runtime_delete, contributor?_concat, habout, hnone, h.source]
    by_cases heq : name' = name
    · simp [heq]
    · simp [heq, Ne.symm heq]
  cases op with
  | setWired new =>
    refine ⟨?_, fun name => ?_, .of_dirty rfl⟩
    · rw [lastWired_concat]
      rfl
    · rw [contributor?_concat, if_neg (by simp [Operation.source?])]
      exact h.source name
  | current =>
    refine ⟨?_, fun name => ?_, h.upToDate.current⟩
    · rw [lastWired_concat]
      exact (wired_current l).trans h.wired_eq
    · rw [contributor?_concat, if_neg (by simp [Operation.source?])]
      exact (congrArg (KeyMap.get? · name) (runtime_current l)).trans (h.source name)
  | delete name =>
    refine ⟨?_, hgone name rfl rfl, h.upToDate.delete name⟩
    rw [lastWired_concat]
    exact (wired_delete l name).trans h.wired_eq
  | update s =>
    by_cases hmarked : s.isSource
    · have hstep : l.step (.update s) = (l.writeSource s.name s.rules).wake := if_pos hmarked
      rw [hstep]
      refine ⟨?_, fun name => ?_, .of_dirty rfl⟩
      · rw [lastWired_concat]
        exact h.wired_eq
      · have hinsert : (l.writeSource s.name s.rules).wake.runtime.get? name =
            if name = s.name then some s.rules else l.runtime.get? name := KeyMap.get?_insert ..
        rw [hinsert, contributor?_concat, h.source]
        by_cases heq : name = s.name
        · simp [heq, Operation.source?, Operation.contributor?, hmarked]
        · simp [heq, Ne.symm heq, Operation.source?]
    · have hstep : l.step (.update s) = l.delete s.name := if_neg hmarked
      rw [hstep]
      refine ⟨?_, hgone s.name rfl (if_neg hmarked), h.upToDate.delete s.name⟩
      rw [lastWired_concat]
      exact (wired_delete l s.name).trans h.wired_eq

theorem reflects_run (wired : Settings) (ops : List Operation) :
    ((start wired).run ops).Reflects wired ops := by
  induction ops using List.reverseRecOn with
  | nil => exact ⟨rfl, fun _ => rfl, upToDate_start wired⟩
  | append_singleton ops op ih =>
    rw [run, List.foldl_append]
    exact ih.step op

/-- Histories that wrote the same documents and in which the same happened to each source leave
    the same sources. -/
theorem Reflects.runtime_eq {l l' : LiveSettings} {wired wired' : Settings}
    {ops ops' : List Operation} (h : l.Reflects wired ops) (h' : l'.Reflects wired' ops')
    (habout : ∀ name, about ops name = about ops' name) : l.runtime = l'.runtime :=
  KeyMap.ext_get? fun name => by rw [h.source, h'.source, contributor?, contributor?, habout]

theorem Reflects.wired_eq_wired {l l' : LiveSettings} {wired : Settings}
    {ops ops' : List Operation} (h : l.Reflects wired ops) (h' : l'.Reflects wired ops')
    (hdocuments : documents ops = documents ops') : l.wired = l'.wired := by
  rw [h.wired_eq, h'.wired_eq, lastWired, lastWired, hdocuments]

/-- The rules of the sources, in the order of the names of those that take part. -/
theorem Reflects.flatten_values {l : LiveSettings} {wired : Settings} {ops : List Operation}
    (h : l.Reflects wired ops) :
    l.runtime.values.flatten =
      l.runtime.keys.flatMap fun name =>
        ((contributor? ops name).map RuleSource.rules).getD [] := by
  rw [KeyMap.flatten_values]
  simp only [h.source]

/-- After any history, the settings of the document are those written last, whatever happened to
    sources; what is answered has their rules and after them those of the sources that take part,
    in the order of their names, each with the rules of exactly its entries that can be read, in
    the order of their keys; and the five other settings are those of the document. Another
    history that wrote the same documents, and in which the same happened to each source, gets the
    same answer, however its operations were mixed and whenever somebody asked. -/
theorem current_run (wired : Settings) (ops : List Operation) :
    let l := (start wired).run ops
    l.wired = lastWired wired ops ∧
    (∃ names : List String, names.Pairwise (· < ·) ∧
      (∀ name, name ∈ names ↔ ∃ s, contributor? ops name = some s) ∧
      l.current.1.1.Agrees
        { lastWired wired ops with
          rules := (lastWired wired ops).rules ++ names.flatMap fun name =>
            match contributor? ops name with
            | some s =>
              (s.data.toList.filterMap fun e => (Settings.loadRules e.2).toOption).flatten
            | none => [] }) ∧
    ∀ ops', documents ops = documents ops' → (∀ name, about ops name = about ops' name) →
      l.current.1.1.Agrees ((start wired).run ops').current.1.1 := by
  intro l
  have hl : l.Reflects wired ops := reflects_run wired ops
  have hanswer := hl.upToDate.agrees_current
  refine ⟨hl.wired_eq, ⟨l.runtime.keys, l.runtime.keys_pairwise, fun name => ?_, ?_⟩,
    fun ops' hdocuments habout => ?_⟩
  · rw [KeyMap.mem_keys_iff, hl.source]
    cases contributor? ops name <;> simp
  · have hrules : ∀ name, ((contributor? ops name).map RuleSource.rules).getD [] =
        match contributor? ops name with
        | some s => (s.data.toList.filterMap fun e => (Settings.loadRules e.2).toOption).flatten
        | none => [] := fun name => by
      cases contributor? ops name with
      | none => rfl
      | some s => exact s.rules_eq
    have hcombined := hanswer.trans (Settings.agrees_combine _ _)
    rw [hl.flatten_values, hl.wired_eq] at hcombined
    simpa only [hrules] using hcombined
  · have hl' := reflects_run wired ops'
    have hanswer' := hl'.upToDate.agrees_current
    rw [← hl.wired_eq_wired hl' hdocuments, ← hl.runtime_eq hl' habout] at hanswer'
    exact hanswer.trans hanswer'.symm

/-- A source is marked, loses the mark, and is deleted and added anew while the document is
    replaced and somebody asks in between; the answer is that of the history in which nobody asks
    and each source is written in one go. -/
theorem current_run_mixed :
    let marked : String → RuleSource := fun name => RuleSource.annotated { name }
    let first : List Operation :=
      [.update (marked "b"), .current, .update (marked "a"), .update { name := "b" }, .current,
        .setWired { runtimeRules := true }, .delete "a", .current, .update (marked "a")]
    let second : List Operation :=
      [.setWired { runtimeRules := true }, .update (marked "a"), .delete "a",
        .update (marked "a"), .update (marked "b"), .update { name := "b" }]
    ((start {}).run first).current.1.1.Agrees ((start {}).run second).current.1.1 := by
  intro marked first second
  refine (current_run {} first).2.2 second rfl fun name => ?_
  by_cases ha : name = "a"
  · subst ha
    decide
  · by_cases hb : name = "b"
    · subst hb
      decide
    · simp [about, first, second, marked, Operation.source?, RuleSource.annotated, Ne.symm ha,
        Ne.symm hb]

end LiveSettings

end ScrapeDiscovery

import Mathlib.Data.List.Induction
import Mathlib.Data.List.Nodup
import Mathlib.Logic.Function.Basic
import ScrapeDiscovery.Cluster.Watching

/-!
# What a watcher knows

A watcher hears of the objects of one collection: one was added or changed, one is
gone, or here are all of them. What it knows after a sequence of such events is, for
each object that is there, its latest version. Objects are told apart by a key. Of two
versions in one list the later counts.

Results:
* `listed_concat`: what a list with one more object says.
* `listed_eq_some_iff`: what a list says that has each object once.
* `Knowledge.of_run_eq_some`: an object is known under its own key.
-/

namespace ScrapeDiscovery.Cluster

variable {κ α β : Type} [DecidableEq κ]

namespace ObjectEvent

/-- The objects that an event is about. -/
def objects : ObjectEvent α → List α
  | .applied o => [o]
  | .deleted o => [o]
  | .restarted os => os

/-- An event with each object turned into something else. -/
def map (f : α → β) : ObjectEvent α → ObjectEvent β
  | .applied o => .applied (f o)
  | .deleted o => .deleted (f o)
  | .restarted os => .restarted (os.map f)

end ObjectEvent

/-- The latest version of each object that is there, by what tells objects apart. -/
abbrev Knowledge (κ α : Type) := κ → Option α

/-- What a list of objects says: the last version of each. -/
def listed (key : α → κ) (os : List α) : Knowledge κ α :=
  fun k => os.reverse.find? fun o => key o = k

namespace Knowledge

/-- What is known after an event. -/
def take (key : α → κ) (v : Knowledge κ α) : ObjectEvent α → Knowledge κ α
  | .applied o => Function.update v (key o) (some o)
  | .deleted o => Function.update v (key o) none
  | .restarted os => listed key os

/-- What is known after events, one after the other, with nothing known before. -/
def run (key : α → κ) (es : List (ObjectEvent α)) : Knowledge κ α :=
  es.foldl (take key) fun _ => none

end Knowledge

variable {key : α → κ}

/-! ## Lists -/

theorem listed_concat (key : α → κ) (os : List α) (o : α) :
    listed key (os ++ [o]) = Function.update (listed key os) (key o) (some o) := by
  funext k
  rw [listed, List.reverse_append, List.reverse_singleton, List.singleton_append, List.find?_cons]
  by_cases hk : key o = k
  · rw [hk, Function.update_self, decide_eq_true rfl]
  · rw [Function.update_of_ne (Ne.symm hk), decide_eq_false hk]
    rfl

theorem listed_eq_some {os : List α} {k : κ} {o : α} (h : listed key os k = some o) :
    o ∈ os ∧ key o = k :=
  ⟨List.mem_reverse.mp (List.mem_of_find?_eq_some h),
    of_decide_eq_true (List.find?_some (p := fun o => decide (key o = k)) h)⟩

/-- A list that has each object once says that exactly its objects are there. -/
theorem listed_eq_some_iff {os : List α} (hnodup : (os.map key).Nodup) {k : κ} {o : α} :
    listed key os k = some o ↔ o ∈ os ∧ key o = k := by
  refine ⟨listed_eq_some, ?_⟩
  rintro ⟨ho, rfl⟩
  obtain ⟨o', ho'⟩ : ∃ o', listed key os (key o) = some o' :=
    Option.isSome_iff_exists.mp (List.find?_isSome.mpr ⟨o, by simpa using ho, by simp⟩)
  obtain ⟨hmem, hkey⟩ := listed_eq_some ho'
  rw [ho', List.inj_on_of_nodup_map hnodup hmem ho hkey]

theorem listed_eq_none_iff {os : List α} {k : κ} :
    listed key os k = none ↔ ∀ o ∈ os, key o ≠ k := by
  simp [listed, List.find?_eq_none]

/-- Objects turned into something else that is told apart by the same. -/
theorem listed_map {κ' : Type} [DecidableEq κ'] {key' : β → κ'} {f : α → β} {g : κ → κ'}
    (hg : Function.Injective g) (hkey : ∀ o, key' (f o) = g (key o)) (os : List α) (k : κ) :
    listed key' (os.map f) (g k) = (listed key os k).map f := by
  rw [listed, listed, ← List.map_reverse, List.find?_map]
  refine congrArg (Option.map f) (congrArg (os.reverse.find? ·) (funext fun o => ?_))
  simp only [Function.comp_apply, hkey, hg.eq_iff]

/-! ## Every sequence of events -/

namespace Knowledge

theorem run_concat (key : α → κ) (es : List (ObjectEvent α)) (e : ObjectEvent α) :
    run key (es ++ [e]) = (run key es).take key e :=
  List.foldl_append

/-- An object that is known after an event was known before, or the event is about it. -/
theorem take_eq_some {v : Knowledge κ α} {e : ObjectEvent α} {k : κ} {o : α}
    (h : v.take key e k = some o) : v k = some o ∨ o ∈ e.objects ∧ key o = k := by
  cases e with
  | applied o' =>
    rw [take, Function.update_apply] at h
    split_ifs at h with hk
    · obtain rfl := Option.some.inj h
      exact Or.inr ⟨List.mem_cons_self, hk.symm⟩
    · exact Or.inl h
  | deleted o' =>
    rw [take, Function.update_apply] at h
    split_ifs at h
    exact Or.inl h
  | restarted os => exact Or.inr (listed_eq_some h)

/-- What is known is of the kind that all events are about, and known under its own key. -/
theorem of_run_eq_some {P : α → Prop} {es : List (ObjectEvent α)}
    (hP : ∀ e ∈ es, ∀ o ∈ e.objects, P o) {k : κ} {o : α} (h : run key es k = some o) :
    P o ∧ key o = k := by
  induction es using List.reverseRecOn with
  | nil => cases h
  | append_singleton es e ih =>
    rw [run_concat] at h
    rcases take_eq_some h with h | ⟨ho, hk⟩
    · exact ih (fun e' he' => hP e' (List.mem_append_left _ he')) h
    · exact ⟨hP e (List.mem_append_right _ List.mem_cons_self) o ho, hk⟩

end Knowledge

end ScrapeDiscovery.Cluster

import Mathlib.Tactic.Common

/-!
# Steps that may fail

A step gives a result or an error. A chain of steps, or a step for each element of a list,
succeeds if every one of them does.

Results:
* `bind_eq_ok_iff`: one step after another.
* `mem_mapM_iff`, `exists_mapM_iff`: steps taken for each element of a list.
-/

namespace ScrapeDiscovery

variable {ε α β : Type}

/-- A chain of steps succeeds if each of them does. -/
theorem bind_eq_ok_iff {x : Except ε α} {f : α → Except ε β} {b : β} :
    x >>= f = .ok b ↔ ∃ a, x = .ok a ∧ f a = .ok b := by
  cases x <;> simp [bind, Except.bind]

theorem map_eq_ok_iff {x : Except ε α} {g : α → β} {b : β} :
    x.map g = .ok b ↔ ∃ a, x = .ok a ∧ g a = b := by
  cases x <;> simp [Except.map]

theorem exists_map_eq_ok_iff {x : Except ε α} {g : α → β} :
    (∃ b, x.map g = .ok b) ↔ ∃ a, x = .ok a := by
  cases x <;> simp [Except.map]

/-! ## Steps for each element -/

variable {f : α → Except ε β} {xs : List α} {ys : List β}

theorem mapM_cons_eq_ok_iff {x : α} :
    (x :: xs).mapM f = .ok ys ↔ ∃ y ys', f x = .ok y ∧ xs.mapM f = .ok ys' ∧ ys = y :: ys' := by
  simp only [List.mapM_cons, bind_eq_ok_iff]
  constructor
  · rintro ⟨y, hy, ys', hys', h⟩
    exact ⟨y, ys', hy, hys', (Except.ok.inj h).symm⟩
  · rintro ⟨y, ys', hy, hys', rfl⟩
    exact ⟨y, hy, ys', hys', rfl⟩

/-- What was made for the elements of a list. -/
theorem mem_mapM_iff (h : xs.mapM f = .ok ys) {y : β} : y ∈ ys ↔ ∃ x ∈ xs, f x = .ok y := by
  induction xs generalizing ys with
  | nil =>
    obtain rfl : [] = ys := Except.ok.inj h
    simp
  | cons x xs ih =>
    obtain ⟨z, zs, hz, hzs, rfl⟩ := mapM_cons_eq_ok_iff.mp h
    simp only [List.mem_cons, ih hzs, exists_eq_or_imp]
    refine or_congr_left ?_
    rw [hz, Except.ok.injEq, eq_comm]

/-- Steps for each element succeed if each of them does. -/
theorem exists_mapM_iff : (∃ ys, xs.mapM f = .ok ys) ↔ ∀ x ∈ xs, ∃ y, f x = .ok y := by
  induction xs with
  | nil => simp [pure, Except.pure]
  | cons x xs ih =>
    simp only [mapM_cons_eq_ok_iff, List.forall_mem_cons, ← ih]
    constructor
    · rintro ⟨_, y, ys, hy, hys, -⟩
      exact ⟨⟨y, hy⟩, ys, hys⟩
    · rintro ⟨⟨y, hy⟩, ys, hys⟩
      exact ⟨_, y, ys, hy, hys, rfl⟩

theorem eq_nil_of_mapM_iff (h : xs.mapM f = .ok ys) : ys = [] ↔ xs = [] := by
  cases xs with
  | nil =>
    obtain rfl : [] = ys := Except.ok.inj h
    simp
  | cons x xs =>
    obtain ⟨z, zs, -, -, rfl⟩ := mapM_cons_eq_ok_iff.mp h
    simp

end ScrapeDiscovery

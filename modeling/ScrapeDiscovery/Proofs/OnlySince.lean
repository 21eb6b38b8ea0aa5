import Mathlib.Data.List.Induction

/-!
# What has happened since

Statements about a history that ends with the present: something has happened, and since then
nothing but things of a certain kind.

Results:
* `onlySince_concat`: one more thing either is what was looked for, or keeps what held before.
-/

namespace ScrapeDiscovery

variable {α : Type} {P : List α → α → Prop} {Q : α → Prop}

/-- Something has happened that `P` holds of, with all that happened before it, and since then
    nothing but what `Q` holds of. -/
def OnlySince (P : List α → α → Prop) (Q : α → Prop) (history : List α) : Prop :=
  ∃ before x after, history = before ++ x :: after ∧ P before x ∧ ∀ y ∈ after, Q y

theorem not_onlySince_nil : ¬OnlySince P Q [] := by
  rintro ⟨before, x, after, heq, -⟩
  exact absurd heq.symm (by simp)

theorem onlySince_concat {history : List α} {x : α} :
    OnlySince P Q (history ++ [x]) ↔ P history x ∨ Q x ∧ OnlySince P Q history := by
  constructor
  · rintro ⟨before, first, after, heq, hfirst, hafter⟩
    -- what was looked for is the last, or it comes before the last
    rcases List.eq_nil_or_concat after with rfl | ⟨middle, last, rfl⟩
    · obtain ⟨rfl, hlast⟩ := List.append_inj' heq rfl
      cases hlast
      exact Or.inl hfirst
    · rw [List.concat_eq_append] at heq hafter
      rw [← List.cons_append, ← List.append_assoc] at heq
      obtain ⟨rfl, hlast⟩ := List.append_inj' heq rfl
      cases hlast
      rw [List.forall_mem_append, List.forall_mem_singleton] at hafter
      exact Or.inr ⟨hafter.2, before, first, middle, rfl, hfirst, hafter.1⟩
  · rintro (hx | ⟨hx, before, first, after, rfl, hfirst, hafter⟩)
    · exact ⟨history, x, [], rfl, hx, by simp⟩
    · refine ⟨before, first, after ++ [x], by simp, hfirst, ?_⟩
      rw [List.forall_mem_append, List.forall_mem_singleton]
      exact ⟨hafter, hx⟩

end ScrapeDiscovery

import Mathlib.Data.List.Infix
import Mathlib.Tactic.Common
import ScrapeDiscovery.Text.Search

/-!
# Texts with gaps

A text that something is to be written into at some places is a text with gaps. What is
replaced in it may be replaced before the gaps are filled or afterwards, as long as no
character of what is replaced is written into the gaps. And what is written can be told
from the filled text, if there is a gap at all.

Results:
* `replaceAll_eq`: replacing, by recursion on what is left.
* `infix_replaceEach`, `replacement_infix_replaceEach`: what occurs after replacing.
* `replaceEach_eq_self_iff`, `replaceEach_nil_eq_nil_iff`: where replacing leaves everything, and
  where removing leaves nothing.
* `fill_replaceEach`: replacing before and after the gaps are filled.
* `fill_inj`: what was filled in.
-/

namespace ScrapeDiscovery.Text

/-! ## Replacing in lists -/

section Replacing

variable {α : Type} [DecidableEq α] {part replacement : List α}

/-- Replaces every occurrence of `part`, which is not empty, in a list. -/
def replaceEach (part replacement : List α) : List α → List α
  | [] => []
  | a :: as =>
    if part ≠ [] ∧ part <+: a :: as then
      replacement ++ replaceEach part replacement ((a :: as).drop part.length)
    else a :: replaceEach part replacement as
termination_by as => as.length
decreasing_by
  · next h =>
    have := List.length_pos_of_ne_nil h.1
    simp only [List.length_drop, List.length_cons]
    omega
  · exact Nat.lt_succ_self _

@[simp] theorem replaceEach_nil : replaceEach part replacement [] = [] := by
  rw [replaceEach]

theorem replaceEach_append (hne : part ≠ []) (as : List α) :
    replaceEach part replacement (part ++ as) =
      replacement ++ replaceEach part replacement as := by
  obtain ⟨a, rest, rfl⟩ := List.exists_cons_of_ne_nil hne
  rw [List.cons_append, replaceEach, if_pos ⟨hne, List.prefix_append _ _⟩, ← List.cons_append,
    List.drop_left]

theorem replaceEach_cons {a : α} {as : List α} (h : ¬part <+: a :: as) :
    replaceEach part replacement (a :: as) = a :: replaceEach part replacement as := by
  rw [replaceEach, if_neg fun hp => h hp.2]

/-- Nothing is replaced before the first occurrence of the character that `part` begins with. -/
theorem replaceEach_append_of_not_mem {x : α} {xs as : List α} (h : x ∉ as) (bs : List α) :
    replaceEach (x :: xs) replacement (as ++ bs) =
      as ++ replaceEach (x :: xs) replacement bs := by
  induction as with
  | nil => rfl
  | cons a as ih =>
    rw [List.mem_cons, not_or] at h
    obtain ⟨hne, has⟩ := h
    have hprefix : ¬x :: xs <+: a :: (as ++ bs) := fun hp => hne (List.cons_prefix_cons.mp hp).1
    rw [List.cons_append, replaceEach_cons hprefix, ih has, List.cons_append]

omit [DecidableEq α] in
/-- What occurs in a text and begins as `part` does, but occurs nowhere inside it, occurs behind
    it. -/
theorem infix_of_infix_append {x : α} {os xs as : List α} (hx : x ∉ xs)
    (hother : ¬x :: os <+: x :: xs) (hpart : ¬x :: xs <+: x :: os)
    (h : x :: os <:+: x :: xs ++ as) : x :: os <:+: as := by
  obtain ⟨before, after, heq⟩ := h
  rw [List.append_assoc] at heq
  rcases List.append_eq_append_iff.mp heq with ⟨rest, hrest, htail⟩ | ⟨rest, rfl, htail⟩
  · cases rest with
    | nil => exact ⟨[], after, htail⟩
    | cons b rest =>
      obtain rfl : x = b := (List.cons.inj htail).1
      cases before with
      | nil =>
        -- both stand at the beginning
        rw [List.nil_append] at hrest
        rw [← hrest] at htail
        have hboth : x :: os <+: x :: xs ++ as := ⟨after, htail⟩
        exact absurd (List.prefix_or_prefix_of_prefix hboth (List.prefix_append _ _))
          (not_or.mpr ⟨hother, hpart⟩)
      | cons y before =>
        have hxs := (List.cons.inj hrest).2
        exact absurd (hxs ▸ List.mem_append_right _ List.mem_cons_self) hx
  · exact ⟨rest, after, by rw [List.append_assoc, ← htail]⟩

/-- What begins as `part` does, has its first character nowhere else, and neither begins with `part`
    nor the other way round, still occurs after `part` was replaced. -/
theorem infix_replaceEach {x : α} {os xs as : List α} (hos : x ∉ os) (hxs : x ∉ xs)
    (hother : ¬x :: os <+: x :: xs) (hpart : ¬x :: xs <+: x :: os) (h : x :: os <:+: as) :
    x :: os <:+: replaceEach (x :: xs) replacement as := by
  fun_induction replaceEach (x :: xs) replacement as with
  | case1 => exact h
  | case2 a as hmatch ih =>
    obtain ⟨rest, hrest⟩ := hmatch.2
    rw [← hrest, List.drop_left] at ih ⊢
    rw [← hrest] at h
    exact (ih (infix_of_infix_append hxs hother hpart h)).trans (List.suffix_append _ _).isInfix
  | case3 a as hmatch ih =>
    rcases List.infix_cons_iff.mp h with hhead | htail
    · obtain ⟨rest, hrest⟩ := hhead
      rw [List.cons_append, List.cons.injEq] at hrest
      obtain ⟨rfl, rfl⟩ := hrest
      rw [replaceEach_append_of_not_mem hos]
      exact (List.prefix_append (x :: os) _).isInfix
    · exact (ih htail).trans (List.suffix_cons _ _).isInfix

theorem mem_replaceEach {a : α} {as : List α} (ha : a ∉ part) (h : a ∈ as) :
    a ∈ replaceEach part replacement as := by
  fun_induction replaceEach part replacement as with
  | case1 => exact h
  | case2 b as hmatch ih =>
    obtain ⟨rest, hrest⟩ := hmatch.2
    rw [← hrest, List.drop_left] at ih ⊢
    rw [← hrest] at h
    exact List.mem_append_right _ (ih ((List.mem_append.mp h).resolve_left ha))
  | case3 b as hmatch ih =>
    rcases List.mem_cons.mp h with rfl | h
    · exact List.mem_cons_self
    · exact List.mem_cons_of_mem _ (ih h)

theorem replacement_infix_replaceEach {as : List α} (hne : part ≠ []) (h : part <:+: as) :
    replacement <:+: replaceEach part replacement as := by
  fun_induction replaceEach part replacement as with
  | case1 => exact absurd (List.infix_nil.mp h) hne
  | case2 a as hmatch ih => exact (List.prefix_append _ _).isInfix
  | case3 a as hmatch ih =>
    have htail := (List.infix_cons_iff.mp h).resolve_left fun hhead => hmatch ⟨hne, hhead⟩
    exact (ih htail).trans (List.suffix_cons _ _).isInfix

theorem replaceEach_of_not_infix {as : List α} (h : ¬part <:+: as) :
    replaceEach part replacement as = as := by
  induction as with
  | nil => exact replaceEach_nil
  | cons a as ih =>
    obtain ⟨hhead, htail⟩ := not_or.mp (mt List.infix_cons_iff.mpr h)
    rw [replaceEach_cons hhead, ih htail]

theorem length_replaceEach_le (hlen : replacement.length ≤ part.length) (as : List α) :
    (replaceEach part replacement as).length ≤ as.length := by
  fun_induction replaceEach part replacement as with
  | case1 => exact Nat.le_refl _
  | case2 a as hmatch ih =>
    have hpart := hmatch.2.length_le
    rw [List.length_drop] at ih
    rw [List.length_append]
    omega
  | case3 a as hmatch ih => exact Nat.succ_le_succ ih

/-- What is replaced by something shorter makes the text shorter. -/
theorem length_replaceEach_lt (hlen : replacement.length < part.length) {as : List α}
    (h : part <:+: as) : (replaceEach part replacement as).length < as.length := by
  fun_induction replaceEach part replacement as with
  | case1 =>
    rw [List.infix_nil.mp h] at hlen
    exact absurd hlen (Nat.not_lt_zero _)
  | case2 a as hmatch ih =>
    have hpart := hmatch.2.length_le
    have hrest := length_replaceEach_le hlen.le ((a :: as).drop part.length)
    rw [List.length_drop] at hrest
    rw [List.length_append]
    omega
  | case3 a as hmatch ih =>
    have hne : part ≠ [] := List.ne_nil_of_length_pos (Nat.zero_lt_of_lt hlen)
    have htail := (List.infix_cons_iff.mp h).resolve_left fun hhead => hmatch ⟨hne, hhead⟩
    exact Nat.succ_lt_succ (ih htail)

theorem replaceEach_eq_self_iff (hlen : replacement.length < part.length) {as : List α} :
    replaceEach part replacement as = as ↔ ¬part <:+: as := by
  refine ⟨fun heq h => ?_, replaceEach_of_not_infix⟩
  have hlt := length_replaceEach_lt hlen h
  rw [heq] at hlt
  exact Nat.lt_irrefl _ hlt

/-- Nothing is left of what is some number of times the same part, and of nothing else. -/
theorem replaceEach_nil_eq_nil_iff (hne : part ≠ []) {as : List α} :
    replaceEach part [] as = [] ↔ ∃ n, as = (List.replicate n part).flatten := by
  constructor
  · intro h
    fun_induction replaceEach part [] as with
    | case1 => exact ⟨0, rfl⟩
    | case2 a as hmatch ih =>
      obtain ⟨rest, hrest⟩ := hmatch.2
      rw [← hrest, List.drop_left] at ih
      rw [List.nil_append, ← hrest, List.drop_left] at h
      obtain ⟨n, rfl⟩ := ih h
      exact ⟨n + 1, by rw [← hrest, List.replicate_succ, List.flatten_cons]⟩
    | case3 a as hmatch ih => exact absurd h (List.cons_ne_nil _ _)
  · rintro ⟨n, rfl⟩
    induction n with
    | zero => exact replaceEach_nil
    | succ n ih =>
      rw [List.replicate_succ, List.flatten_cons, replaceEach_append hne, ih, List.append_nil]

end Replacing

/-- Replacing is done from left to right, each time with what is left. -/
theorem replaceAll_eq {part : List Char} (hne : part ≠ []) (replacement cs : List Char) :
    replaceAll part replacement cs = replaceEach part replacement cs := by
  have hfrom : ∀ skip, replaceFrom part replacement skip cs =
      replaceEach part replacement (cs.drop skip) := by
    induction cs with
    | nil =>
      intro skip
      rw [List.drop_nil, replaceEach_nil]
      cases skip <;> rfl
    | cons c cs ih =>
      intro skip
      cases skip with
      | succ skip => exact ih skip
      | zero =>
        obtain ⟨n, hn⟩ := Nat.exists_eq_add_one.mpr (List.length_pos_of_ne_nil hne)
        rw [replaceFrom, List.drop_zero, replaceEach, ih, ih, hn]
        simp only [List.isPrefixOf_iff_prefix, hne, ne_eq, not_false_eq_true, true_and]
        rfl
  exact hfrom 0

/-! ## Gaps -/

/-- Fills the gaps of a text, which `none` stands for. -/
def fill (p : List Char) (g : List (Option Char)) : List Char := g.flatMap fun a => a.elim p ([·])

section Filling

variable {p q : List Char} {g : List (Option Char)}

@[simp] theorem fill_nil (p : List Char) : fill p [] = [] := rfl

@[simp] theorem fill_some (p : List Char) (c : Char) (g : List (Option Char)) :
    fill p (some c :: g) = c :: fill p g := rfl

@[simp] theorem fill_none (p : List Char) (g : List (Option Char)) :
    fill p (none :: g) = p ++ fill p g := rfl

@[simp] theorem fill_append (p : List Char) (g g' : List (Option Char)) :
    fill p (g ++ g') = fill p g ++ fill p g' := List.flatMap_append

@[simp] theorem fill_map_some (p cs : List Char) : fill p (cs.map some) = cs := by
  induction cs with
  | nil => rfl
  | cons c cs ih => rw [List.map_cons, fill_some, ih]

/-- What occurs at the beginning of a filled text was there before, if none of its characters are
    filled in. -/
theorem prefix_of_prefix_fill {part : List Char} (hp : p ≠ []) (hpart : ∀ c ∈ p, c ∉ part)
    (h : part <+: fill p g) : part.map some <+: g := by
  induction part generalizing g with
  | nil => exact List.nil_prefix
  | cons x part ih =>
    cases g with
    | nil => exact absurd h (by simp)
    | cons a g =>
      cases a with
      | none =>
        obtain ⟨y, ys, rfl⟩ := List.exists_cons_of_ne_nil hp
        obtain ⟨rfl, -⟩ := List.cons_prefix_cons.mp h
        exact absurd List.mem_cons_self (hpart x List.mem_cons_self)
      | some c =>
        obtain ⟨rfl, hrest⟩ := List.cons_prefix_cons.mp h
        refine List.cons_prefix_cons.mpr ⟨rfl, ih (fun c hc hmem => ?_) hrest⟩
        exact hpart c hc (List.mem_cons_of_mem _ hmem)

/-- Replacing may be done before or after the gaps are filled. -/
theorem fill_replaceEach {part : List Char} (hne : part ≠ []) (hp : p ≠ [])
    (hpart : ∀ c ∈ p, c ∉ part) (replacement g : List (Option Char)) :
    replaceEach part (fill p replacement) (fill p g) =
      fill p (replaceEach (part.map some) replacement g) := by
  obtain ⟨x, xs, rfl⟩ := List.exists_cons_of_ne_nil hne
  fun_induction replaceEach ((x :: xs).map some) replacement g with
  | case1 => exact replaceEach_nil
  | case2 a g hmatch ih =>
    obtain ⟨rest, hrest⟩ := hmatch.2
    rw [← hrest, List.drop_left] at ih ⊢
    rw [fill_append, fill_map_some, replaceEach_append hne, ih, fill_append]
  | case3 a g hmatch ih =>
    cases a with
    | none =>
      have hx : x ∉ p := fun hmem => hpart x hmem List.mem_cons_self
      rw [fill_none, fill_none, replaceEach_append_of_not_mem hx, ih]
    | some c =>
      have hprefix : ¬x :: xs <+: fill p (some c :: g) := fun h =>
        hmatch ⟨List.cons_ne_nil _ _, prefix_of_prefix_fill hp hpart h⟩
      rw [fill_some, fill_some, ← ih]
      exact replaceEach_cons hprefix

theorem length_fill (p : List Char) (g : List (Option Char)) :
    (fill p g).length = g.count none * p.length + g.countP Option.isSome := by
  induction g with
  | nil => simp
  | cons a g ih =>
    cases a with
    | none =>
      rw [fill_none, List.length_append, ih, List.count_cons_self,
        List.countP_cons_of_neg Bool.false_ne_true, Nat.add_one_mul]
      omega
    | some c =>
      rw [fill_some, List.length_cons, ih, List.count_cons_of_ne (Option.some_ne_none c),
        List.countP_cons_of_pos rfl]
      omega

/-- What was filled into a text with a gap can be told. -/
theorem fill_inj (hg : none ∈ g) : fill p g = fill q g ↔ p = q := by
  refine ⟨fun h => ?_, fun h => h ▸ rfl⟩
  have hlength : p.length = q.length := by
    have heq := congrArg List.length h
    rw [length_fill, length_fill, Nat.add_right_cancel_iff] at heq
    exact Nat.eq_of_mul_eq_mul_left (List.count_pos_iff.mpr hg) heq
  induction g with
  | nil => exact absurd hg List.not_mem_nil
  | cons a g ih =>
    cases a with
    | none => exact (List.append_inj h hlength).1
    | some c =>
      exact ih ((List.mem_cons.mp hg).resolve_left nofun) (List.cons.inj h).2

end Filling

end ScrapeDiscovery.Text

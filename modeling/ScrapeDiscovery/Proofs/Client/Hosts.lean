import Mathlib.Data.List.Count
import Mathlib.Tactic.Common
import ScrapeDiscovery.Client.Host

/-!
# The characters of IP addresses

An address of version 4 is made of digits and dots. An address of version 6 is made of
hexadecimal digits, colons and dots, and has at least two colons, whether its groups are
all there or some are left out. So no text is an address of both versions.

Results:
* `forall_of_splitOnChar`, `length_splitOnChar`: what the pieces of a text tell of it.
* `isDigit_or_dot_of_isDottedQuad`, `isHexDigit_or_of_isVersion6`: the characters.
* `two_le_count_of_isVersion6`: the colons of version 6.
-/

namespace ScrapeDiscovery

/-! ## The pieces of a text -/

namespace Text

theorem splitOnChar_cons (isSeparator : Char → Bool) (c : Char) (cs : List Char) :
    ∃ piece pieces, splitOnChar isSeparator cs = piece :: pieces ∧
      splitOnChar isSeparator (c :: cs) =
        if isSeparator c then [] :: piece :: pieces else (c :: piece) :: pieces := by
  obtain ⟨piece, pieces, hpieces⟩ :=
    List.exists_cons_of_ne_nil (splitOnChar_ne_nil isSeparator cs)
  refine ⟨piece, pieces, hpieces, ?_⟩
  rw [splitOnChar, hpieces]

/-- What holds of the separator and of every character of the pieces holds of the whole text. -/
theorem forall_of_splitOnChar {x : Char} {p : Char → Prop} (hx : p x) {cs : List Char}
    (hpieces : ∀ piece ∈ splitOnChar (· == x) cs, ∀ c ∈ piece, p c) : ∀ c ∈ cs, p c := by
  induction cs with
  | nil => exact fun c hc => absurd hc List.not_mem_nil
  | cons d cs ih =>
    obtain ⟨piece, pieces, hcs, hdcs⟩ := splitOnChar_cons (· == x) d cs
    rw [hdcs] at hpieces
    rw [hcs] at ih
    have hboth : p d ∧ ∀ piece' ∈ piece :: pieces, ∀ c ∈ piece', p c := by
      split at hpieces
      · next hd =>
        exact ⟨(beq_iff_eq.mp hd) ▸ hx, fun q hq => hpieces q (List.mem_cons_of_mem _ hq)⟩
      · refine ⟨hpieces _ List.mem_cons_self d List.mem_cons_self, fun q hq c hc => ?_⟩
        rcases List.mem_cons.mp hq with rfl | hq
        · exact hpieces _ List.mem_cons_self c (List.mem_cons_of_mem _ hc)
        · exact hpieces q (List.mem_cons_of_mem _ hq) c hc
    exact List.forall_mem_cons.mpr ⟨hboth.1, ih hboth.2⟩

/-- Every separator begins one more piece. -/
theorem length_splitOnChar (x : Char) (cs : List Char) :
    (splitOnChar (· == x) cs).length = cs.count x + 1 := by
  induction cs with
  | nil => rfl
  | cons d cs ih =>
    obtain ⟨piece, pieces, hcs, hdcs⟩ := splitOnChar_cons (· == x) d cs
    rw [hcs] at ih
    rw [hdcs, List.count_cons]
    split
    · next hd => simpa using ih
    · next hd => simpa using ih

theorem isAlphanum_of_digitValue {radix : Nat} {c : Char}
    (h : (digitValue radix c).isSome = true) : c.isAlphanum = true := by
  obtain ⟨d, hd⟩ := Option.isSome_iff_exists.mp h
  have hvalue := (Option.filter_eq_some_iff.mp hd).1
  rw [Char.isAlphanum, Bool.or_eq_true]
  split_ifs at hvalue with hdigit hlower hupper
  · exact Or.inr hdigit
  · exact Or.inl (Bool.or_eq_true_iff.mpr (Or.inr hlower))
  · rw [Bool.and_eq_true, decide_eq_true_iff, decide_eq_true_iff] at hupper
    exact Or.inl (Bool.or_eq_true_iff.mpr (Or.inl (decide_eq_true hupper)))

theorem isSome_digitValue_of_isDigit {c : Char} (h : c.isDigit = true) :
    (digitValue 16 c).isSome = true := by
  have hdigit : (decide ('0' ≤ c) && decide (c ≤ '9')) = true := h
  have hle : c.toNat ≤ '9'.toNat := of_decide_eq_true (Bool.and_eq_true_iff.mp hdigit).2
  have hvalue : c.toNat - '0'.toNat < 16 := by
    have : '9'.toNat = 57 := rfl
    have : '0'.toNat = 48 := rfl
    omega
  rw [digitValue, if_pos hdigit]
  rw [Option.filter_some, if_pos (decide_eq_true hvalue), Option.isSome_some]

end Text

/-! ## Addresses -/

namespace Client.Host

open Text (splitOnChar)

theorem isDigit_or_dot_of_isDottedQuad {cs : List Char} (h : isDottedQuad cs = true) :
    ∀ c ∈ cs, c.isDigit = true ∨ c = '.' := by
  rw [isDottedQuad, Bool.and_eq_true, List.all_eq_true] at h
  refine Text.forall_of_splitOnChar (Or.inr rfl) fun piece hpiece c hc => Or.inl ?_
  have hbyte := h.2 piece hpiece
  simp only [Bool.and_eq_true, List.all_eq_true] at hbyte
  exact hbyte.1.1.2 c hc

/-- Groups that are counted are made of hexadecimal digits, but for a last one that is an address
    of version 4 and counts for two. -/
theorem groupCount?_spec {groups : List (List Char)} {mayEndDotted : Bool} {n : Nat}
    (h : groupCount? groups mayEndDotted = some n) :
    n ≤ groups.length + 1 ∧
      ∀ g ∈ groups, ∀ c ∈ g, (Text.digitValue 16 c).isSome = true ∨ c = '.' := by
  have hgroup : ∀ g : List Char, (!g.isEmpty && decide (g.length ≤ 4) &&
      g.all fun c => (Text.digitValue 16 c).isSome) = true →
        ∀ c ∈ g, (Text.digitValue 16 c).isSome = true ∨ c = '.' := by
    intro g hg c hc
    exact Or.inl (List.all_eq_true.mp (Bool.and_eq_true_iff.mp hg).2 c hc)
  unfold groupCount? at h
  cases hreverse : groups.reverse with
  | nil =>
    rw [hreverse] at h
    obtain rfl := List.reverse_eq_nil_iff.mp hreverse
    cases h
    exact ⟨Nat.zero_le _, fun g hg => absurd hg List.not_mem_nil⟩
  | cons last others =>
    rw [hreverse] at h
    dsimp only at h
    obtain rfl : groups = others.reverse ++ [last] := by
      rw [← groups.reverse_reverse, hreverse, List.reverse_cons]
    -- whatever the last group is, the others are groups
    have hcount : n ≤ (others.reverse ++ [last]).length + 1 ∧
        (∀ g ∈ others, ∀ c ∈ g, (Text.digitValue 16 c).isSome = true ∨ c = '.') ∧
        ∀ c ∈ last, (Text.digitValue 16 c).isSome = true ∨ c = '.' := by
      split_ifs at h with hothers hlast hdotted
      · cases h
        exact ⟨Nat.le_succ _, fun g hg => hgroup g (List.all_eq_true.mp hothers g hg),
          hgroup last hlast⟩
      · cases h
        have hlast := isDigit_or_dot_of_isDottedQuad (Bool.and_eq_true_iff.mp hdotted).2
        exact ⟨Nat.le_refl _, fun g hg => hgroup g (List.all_eq_true.mp hothers g hg),
          fun c hc => (hlast c hc).imp_left Text.isSome_digitValue_of_isDigit⟩
    refine ⟨hcount.1, fun g hg => ?_⟩
    rcases List.mem_append.mp hg with hg | hg
    · exact hcount.2.1 g (List.mem_reverse.mp hg)
    · exact (List.mem_singleton.mp hg) ▸ hcount.2.2

theorem isHexDigit_or_of_groupsOf {cs : List Char} {mayEndDotted : Bool} {n : Nat}
    (h : groupCount? (groupsOf cs) mayEndDotted = some n) :
    ∀ c ∈ cs, (Text.digitValue 16 c).isSome = true ∨ c = '.' ∨ c = ':' := by
  unfold groupsOf at h
  split at h
  · next hempty =>
    rw [List.isEmpty_iff.mp hempty]
    exact fun c hc => absurd hc List.not_mem_nil
  · refine Text.forall_of_splitOnChar (Or.inr (Or.inr rfl)) fun g hg c hc => ?_
    exact ((groupCount?_spec h).2 g hg c hc).imp_right Or.inl

theorem eq_of_splitAtGap {cs before after : List Char}
    (h : splitAtGap cs = some (before, after)) : cs = before ++ ':' :: ':' :: after := by
  induction cs generalizing before with
  | nil => cases h
  | cons c cs ih =>
    unfold splitAtGap at h
    split at h
    · next heq =>
      cases h
      exact heq
    · next heq =>
      obtain ⟨rfl, rfl⟩ := List.cons.inj heq
      obtain ⟨⟨before', after'⟩, hsplit, he⟩ := Option.map_eq_some_iff.mp h
      cases he
      rw [ih hsplit, List.cons_append]
    · cases h

theorem isHexDigit_or_of_isVersion6 {cs : List Char} (h : isVersion6 cs = true) :
    ∀ c ∈ cs, (Text.digitValue 16 c).isSome = true ∨ c = '.' ∨ c = ':' := by
  unfold isVersion6 at h
  split at h
  · exact isHexDigit_or_of_groupsOf (of_decide_eq_true h)
  · next before after hgap =>
    split at h
    · next m n hm hn =>
      rw [eq_of_splitAtGap hgap]
      intro c hc
      rcases List.mem_append.mp hc with hc | hc
      · exact isHexDigit_or_of_groupsOf hm c hc
      rcases List.mem_cons.mp hc with rfl | hc
      · exact Or.inr (Or.inr rfl)
      rcases List.mem_cons.mp hc with rfl | hc
      · exact Or.inr (Or.inr rfl)
      · exact isHexDigit_or_of_groupsOf hn c hc
    · cases h

/-- A gap is two colons, and without one there are colons between at least seven groups. -/
theorem two_le_count_of_isVersion6 {cs : List Char} (h : isVersion6 cs = true) :
    2 ≤ cs.count ':' := by
  unfold isVersion6 at h
  split at h
  · have height := (groupCount?_spec (of_decide_eq_true h)).1
    unfold groupsOf at height
    split at height
    · exact absurd height (by decide)
    · rw [Text.length_splitOnChar] at height
      omega
  · next before after hgap =>
    rw [eq_of_splitAtGap hgap, List.count_append, List.count_cons_self, List.count_cons_self]
    omega

/-- No address of version 4 has a colon. -/
theorem isVersion6_of_isDottedQuad {cs : List Char} (h : isDottedQuad cs = true) :
    isVersion6 cs = false := by
  by_contra hsix
  have hcolons := two_le_count_of_isVersion6 (Bool.not_eq_false _ ▸ hsix)
  have hcolon : ':' ∈ cs := List.count_pos_iff.mp (by omega)
  rcases isDigit_or_dot_of_isDottedQuad h ':' hcolon with h | h
  · exact absurd h (by decide)
  · exact absurd h (by decide)

end Client.Host

end ScrapeDiscovery

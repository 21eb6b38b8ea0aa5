import Mathlib.Tactic.Common
import ScrapeDiscovery.Proofs.Text.Digits

/-!
# How a number may be spelled

Numerals are read with a plus sign, with leading zeros, and with a minus sign before zero.
None of these is there when a number is written, so of all the spellings of a number one is
canonical: the one in which it is written.

Results:
* `toDigits_append_of_readDigits`: digits after a number that is not zero make up its digits.
* `exists_spelling`: a numeral is a sign, zeros, and the digits of what is read.
* `eq_toString_iff`: the canonical spelling is the one that is written.
-/

namespace ScrapeDiscovery.Text

/-! ## Digits that are read -/

/-- A number after the sign that its digits are read with. -/
def signed (negative : Bool) (n : Nat) : Int := if negative then -n else n

theorem eq_digitChar_of_digitValue {c : Char} {d : Nat} (h : digitValue 10 c = some d) :
    d < 10 ∧ c = Nat.digitChar d := by
  obtain ⟨hvalue, hd⟩ := Option.filter_eq_some_iff.mp h
  have hd : d < 10 := of_decide_eq_true hd
  refine ⟨hd, ?_⟩
  split_ifs at hvalue with hdigit hlower hupper
  · rw [Bool.and_eq_true, decide_eq_true_iff, decide_eq_true_iff] at hdigit
    have hall : ∀ d < 10, Char.ofNat (d + '0'.toNat) = Nat.digitChar d := by decide
    have hlow : '0'.toNat ≤ c.toNat := hdigit.1
    rw [← hall d hd, ← Option.some.inj hvalue, Nat.sub_add_cancel hlow, Char.ofNat_toNat]
  -- a letter counts ten at least
  · have := Option.some.inj hvalue
    omega
  · have := Option.some.inj hvalue
    omega

/-- A digit is read on to what was read before it. -/
theorem readDigits_cons_eq_ok {range : IntRange} {negative : Bool} {a : Nat} {c : Char}
    {cs : List Char} {n : Int}
    (h : readDigits 10 range negative (signed negative a) (c :: cs) = .ok n) :
    ∃ d, d < 10 ∧ c = Nat.digitChar d ∧
      readDigits 10 range negative (signed negative (a * 10 + d)) cs = .ok n := by
  rw [readDigits] at h
  cases hvalue : digitValue 10 c with
  | none =>
    rw [hvalue] at h
    cases h
  | some d =>
    obtain ⟨hd, hc⟩ := eq_digitChar_of_digitValue hvalue
    refine ⟨d, hd, hc, ?_⟩
    rw [hvalue] at h
    have hnext : signed negative (a * 10 + d) =
        if negative then signed negative a * (10 : Nat) - d
        else signed negative a * (10 : Nat) + d := by
      cases negative <;> simp only [signed, Bool.false_eq_true, if_true, if_false] <;> omega
    rw [hnext]
    cases negative with
    | true =>
      simp only [if_true] at h ⊢
      split at h
      · cases h
      · exact h
    | false =>
      simp only [Bool.false_eq_true, if_false] at h ⊢
      split at h
      · cases h
      · exact h

/-- Digits that are read on to a number that is not zero are the further digits of the number that
    they make up. -/
theorem toDigits_append_of_readDigits {range : IntRange} {negative : Bool} {a : Nat} {n : Int}
    {cs : List Char} (ha : 0 < a)
    (h : readDigits 10 range negative (signed negative a) cs = .ok n) :
    n = signed negative n.natAbs ∧ Nat.toDigits 10 a ++ cs = Nat.toDigits 10 n.natAbs := by
  induction cs generalizing a with
  | nil =>
    obtain rfl := Except.ok.inj h
    have habs : (signed negative a).natAbs = a := by
      cases negative <;> simp [signed]
    rw [habs, List.append_nil]
    exact ⟨rfl, rfl⟩
  | cons c cs ih =>
    obtain ⟨d, hd, rfl, hrest⟩ := readDigits_cons_eq_ok h
    have hlast : Nat.toDigits 10 a ++ [Nat.digitChar d] = Nat.toDigits 10 (a * 10 + d) := by
      rw [← Nat.toDigits_of_lt_base hd, Nat.toDigits_append_toDigits (by decide) ha hd,
        Nat.mul_comm]
    obtain ⟨hn, hdigits⟩ := ih (by omega) hrest
    refine ⟨hn, ?_⟩
    rw [← hdigits, ← hlast, List.append_assoc]
    rfl

/-- Digits are zeros, and then the digits of the number that is read. -/
theorem exists_zeros_of_readDigits {range : IntRange} {negative : Bool} {n : Int}
    {cs : List Char} (hne : cs ≠ []) (h : readDigits 10 range negative 0 cs = .ok n) :
    n = signed negative n.natAbs ∧
      ∃ zeros, cs = List.replicate zeros '0' ++ Nat.toDigits 10 n.natAbs := by
  have hzero : signed negative 0 = 0 := by cases negative <;> rfl
  induction cs with
  | nil => exact absurd rfl hne
  | cons c cs ih =>
    rw [← hzero] at h
    obtain ⟨d, hd, rfl, hrest⟩ := readDigits_cons_eq_ok h
    rw [Nat.zero_mul, Nat.zero_add] at hrest
    rcases Nat.eq_zero_or_pos d with rfl | hpos
    · rw [hzero] at hrest
      cases cs with
      | nil =>
        obtain rfl := Except.ok.inj hrest
        exact ⟨hzero.symm, 0, rfl⟩
      | cons c' cs =>
        obtain ⟨hn, zeros, hcs⟩ := ih (List.cons_ne_nil _ _) hrest
        refine ⟨hn, zeros + 1, ?_⟩
        rw [List.replicate_succ, List.cons_append, ← hcs]
        rfl
    · obtain ⟨hn, hdigits⟩ := toDigits_append_of_readDigits hpos hrest
      refine ⟨hn, 0, ?_⟩
      rw [← hdigits, Nat.toDigits_of_lt_base hd]
      rfl

/-! ## Spellings -/

/-- A numeral is made of a sign, if there is one, of zeros, and of the digits of the number that is
    read. Only numbers that are not positive are read after a minus sign. -/
theorem exists_spelling {range : IntRange} {s : String} {n : Int}
    (h : parseInt range s = .ok n) :
    ∃ sign zeros, s.toList = sign ++ List.replicate zeros '0' ++ Nat.toDigits 10 n.natAbs ∧
      (sign = ['-'] ∧ n ≤ 0 ∨ (sign = [] ∨ sign = ['+']) ∧ 0 ≤ n) := by
  have hpositive : ∀ {cs : List Char}, cs ≠ [] → readDigits 10 range false 0 cs = .ok n →
      0 ≤ n ∧ ∃ zeros, cs = List.replicate zeros '0' ++ Nat.toDigits 10 n.natAbs := by
    intro cs hne hread
    obtain ⟨hn, hzeros⟩ := exists_zeros_of_readDigits hne hread
    rw [signed, if_neg Bool.false_ne_true] at hn
    exact ⟨by omega, hzeros⟩
  rw [parseInt] at h
  unfold readInt at h
  split at h
  · cases h
  · cases h
  · cases h
  · next cs hplus hcs =>
    obtain ⟨hn, zeros, hzeros⟩ := hpositive hplus h
    exact ⟨['+'], zeros, by rw [hcs, hzeros]; rfl, Or.inr ⟨Or.inr rfl, hn⟩⟩
  · next cs hminus hcs =>
    split at h
    · obtain ⟨hn, zeros, hzeros⟩ := exists_zeros_of_readDigits hminus h
      rw [signed, if_pos rfl] at hn
      exact ⟨['-'], zeros, by rw [hcs, hzeros]; rfl, Or.inl ⟨rfl, by omega⟩⟩
    · cases h
  · next hnil _ _ _ _ =>
    obtain ⟨hn, zeros, hzeros⟩ := hpositive hnil h
    exact ⟨[], zeros, by rw [hzeros]; rfl, Or.inr ⟨Or.inl rfl, hn⟩⟩

/-- Whether a numeral is that of a positive number, without a sign and leading zeros. -/
def isPositive : List Char → Bool
  | [] => false
  | c :: cs => c ≠ '0' && (c :: cs).all Char.isDigit

/-- Whether a numeral is spelled as numbers are written: zero, or the numeral of a positive number,
    after a minus sign if the number is negative. -/
def isCanonical : List Char → Bool
  | '-' :: cs => isPositive cs
  | cs => cs = ['0'] || isPositive cs

theorem isPositive_toDigits {n : Nat} (hn : 0 < n) : isPositive (Nat.toDigits 10 n) = true := by
  have hdigits := all_toDigits (p := Char.isDigit) (by decide) n
  obtain ⟨d, cs, hpos, hd, hcs⟩ := exists_toDigits_eq_cons hn
  have hne : ∀ d < 10, 0 < d → Nat.digitChar d ≠ '0' := by decide
  rw [hcs] at hdigits ⊢
  rw [isPositive, Bool.and_eq_true, decide_eq_true_iff, List.all_eq_true]
  exact ⟨hne d hd hpos, hdigits⟩

theorem isCanonical_toString (n : Int) : isCanonical (toString n).toList = true := by
  rw [toList_toString_int]
  split_ifs with hn
  · rcases Nat.eq_zero_or_pos n.natAbs with hzero | hpos
    · rw [hzero]
      rfl
    · obtain ⟨d, cs, -, hd, hcs⟩ := exists_toDigits_eq_cons hpos
      have hminus : ∀ d < 10, Nat.digitChar d ≠ '-' := by decide
      have hp := isPositive_toDigits hpos
      rw [hcs] at hp ⊢
      rw [isCanonical, hp, Bool.or_true]
      rintro _ h
      exact hminus d hd (List.cons.inj h).1
  · exact isPositive_toDigits (by omega)

/-- A zero begins no other canonical numeral than that of zero. -/
theorem isCanonical_zero_cons {cs : List Char} : isCanonical ('0' :: cs) = true ↔ cs = [] := by
  simp [isCanonical, isPositive]

/-- A numeral that is read as a number is the one in which the number is written exactly if it is
    canonical. -/
theorem eq_toString_iff {range : IntRange} {s : String} {n : Int}
    (h : parseInt range s = .ok n) : s = toString n ↔ isCanonical s.toList = true := by
  refine ⟨fun hs => ?_, fun hcanonical => String.toList_inj.mp ?_⟩
  · rw [hs]
    exact isCanonical_toString n
  obtain ⟨sign, zeros, hspelled, hsign⟩ := exists_spelling h
  rw [hspelled] at hcanonical
  rw [hspelled, toList_toString_int]
  rcases hsign with ⟨rfl, hn⟩ | ⟨rfl | rfl, hn⟩
  · cases zeros with
    | zero =>
      rcases Int.lt_or_eq_of_le hn with hneg | rfl
      · rw [if_neg (by omega)]
        rfl
      · exact absurd hcanonical (by decide)
    | succ zeros => exact absurd hcanonical Bool.false_ne_true
  · cases zeros with
    | zero =>
      rw [if_pos hn]
      rfl
    | succ zeros =>
      obtain ⟨d, ds, -, hds⟩ := exists_toDigits_eq n.natAbs
      refine absurd (isCanonical_zero_cons.mp hcanonical) ?_
      rw [hds]
      exact List.append_ne_nil_of_right_ne_nil _ (List.cons_ne_nil _ _)
  · exact absurd hcanonical Bool.false_ne_true

end ScrapeDiscovery.Text

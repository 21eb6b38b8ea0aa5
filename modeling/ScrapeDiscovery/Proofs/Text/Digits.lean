import Mathlib.Tactic.Common
import ScrapeDiscovery.Text.Numeral

/-!
# The decimal digits of a number

A number is written in decimal digits without a leading zero, a negative one after a
minus sign. Reading such a numeral gives the number back wherever it lies in the range
that is read into.

Results:
* `toDigits_induction`: numbers by their decimal digits, the last one first.
* `exists_toDigits_eq_cons`: no leading zero.
* `parseInt_toString`: reading what was written.
-/

namespace ScrapeDiscovery.Text

/-! ## Digits -/

/-- A number has one digit, or those of its tenth and a last one. -/
theorem toDigits_induction {P : Nat → List Char → Prop}
    (hdigit : ∀ d, d < 10 → P d [Nat.digitChar d])
    (happend : ∀ n d cs, 0 < n → d < 10 → P n cs → P (n * 10 + d) (cs ++ [Nat.digitChar d]))
    (n : Nat) : P n (Nat.toDigits 10 n) := by
  induction n using Nat.strongRecOn with
  | ind n ih =>
    rcases Nat.lt_or_ge n 10 with hn | hn
    · rw [Nat.toDigits_of_lt_base hn]
      exact hdigit n hn
    · rw [Nat.toDigits_of_base_le (by decide) hn]
      have htenth := ih (n / 10) (by omega)
      have hlast := happend (n / 10) (n % 10) _ (by omega) (Nat.mod_lt n (by decide)) htenth
      rwa [Nat.div_add_mod' n 10] at hlast

theorem digitValue_digitChar {d : Nat} (hd : d < 10) :
    digitValue 10 (Nat.digitChar d) = some d := by
  have hall : ∀ d < 10, digitValue 10 (Nat.digitChar d) = some d := by decide
  exact hall d hd

/-- What holds of every decimal digit holds of all digits of a number. -/
theorem all_toDigits {p : Char → Bool} (hp : ∀ d < 10, p (Nat.digitChar d) = true) (n : Nat) :
    ∀ c ∈ Nat.toDigits 10 n, p c = true := by
  induction n using toDigits_induction with
  | hdigit d hd =>
    intro c hc
    rw [List.mem_singleton.mp hc]
    exact hp d hd
  | happend n d cs hn hd ih =>
    intro c hc
    rcases List.mem_append.mp hc with hc | hc
    · exact ih c hc
    · rw [List.mem_singleton.mp hc]
      exact hp d hd

/-- A positive number begins with a digit that is not zero. -/
theorem exists_toDigits_eq_cons {n : Nat} (hn : 0 < n) :
    ∃ d cs, 0 < d ∧ d < 10 ∧ Nat.toDigits 10 n = Nat.digitChar d :: cs := by
  induction n using toDigits_induction with
  | hdigit d hd => exact ⟨d, [], hn, hd, rfl⟩
  | happend n d cs hn' hd ih =>
    obtain ⟨first, cs', hpos, hlt, rfl⟩ := ih hn'
    exact ⟨first, cs' ++ [Nat.digitChar d], hpos, hlt, rfl⟩

theorem exists_toDigits_eq (n : Nat) :
    ∃ d cs, d < 10 ∧ Nat.toDigits 10 n = Nat.digitChar d :: cs := by
  rcases Nat.eq_zero_or_pos n with rfl | hn
  · exact ⟨0, [], by decide, rfl⟩
  · obtain ⟨d, cs, -, hd, hcs⟩ := exists_toDigits_eq_cons hn
    exact ⟨d, cs, hd, hcs⟩

theorem toList_toString_nat (n : Nat) : (toString n).toList = Nat.toDigits 10 n := by
  rw [Nat.toString_eq_repr, Nat.repr_eq_ofList_toDigits, String.toList_ofList]

theorem toList_toString_int (n : Int) :
    (toString n).toList =
      if 0 ≤ n then Nat.toDigits 10 n.natAbs else '-' :: Nat.toDigits 10 n.natAbs := by
  rw [Int.toString_eq_repr, Int.repr_eq_if]
  split_ifs with hn
  · rw [← Nat.toString_eq_repr, toList_toString_nat, show n.toNat = n.natAbs by omega]
  · rw [String.toList_append, ← Nat.toString_eq_repr, toList_toString_nat,
      show (-n).toNat = n.natAbs by omega]
    rfl

/-! ## Numerals -/

theorem readDigits_append (radix : Nat) (range : IntRange) (negative : Bool) (acc : Int)
    (xs ys : List Char) :
    readDigits radix range negative acc (xs ++ ys) =
      (readDigits radix range negative acc xs).bind fun n =>
        readDigits radix range negative n ys := by
  induction xs generalizing acc with
  | nil => rfl
  | cons x xs ih =>
    simp only [List.cons_append, readDigits]
    cases digitValue radix x with
    | none => rfl
    | some d =>
      dsimp only
      split_ifs
      · rfl
      · exact ih _
      · rfl
      · exact ih _

theorem readDigits_toDigits (range : IntRange) (n : Nat) (hn : (n : Int) ≤ range.hi) :
    readDigits 10 range false 0 (Nat.toDigits 10 n) = .ok n := by
  induction n using toDigits_induction with
  | hdigit d hd =>
    simp only [readDigits, digitValue_digitChar hd]
    simp [show ¬range.hi < d by omega]
  | happend n d cs hpos hd ih =>
    rw [readDigits_append, ih (by omega)]
    simp only [Except.bind, readDigits, digitValue_digitChar hd]
    have hfits : ¬range.hi < (n : Int) * (10 : Nat) + d := by omega
    rw [if_neg Bool.false_ne_true, if_neg hfits]
    simp

theorem readDigits_toDigits_negative (range : IntRange) (n : Nat) (hn : range.lo ≤ -(n : Int)) :
    readDigits 10 range true 0 (Nat.toDigits 10 n) = .ok (-(n : Int)) := by
  induction n using toDigits_induction with
  | hdigit d hd =>
    simp only [readDigits, digitValue_digitChar hd]
    simp [show ¬-(d : Int) < range.lo by omega]
  | happend n d cs hpos hd ih =>
    rw [readDigits_append, ih (by omega)]
    simp only [Except.bind, readDigits, digitValue_digitChar hd]
    have hfits : ¬-(n : Int) * (10 : Nat) - d < range.lo := by omega
    rw [if_pos trivial, if_neg hfits]
    refine congrArg Except.ok ?_
    push_cast
    omega

/-- A number that was written is read back wherever it lies in the range. -/
theorem parseInt_toString {range : IntRange} {n : Int} (hlo : range.lo ≤ n)
    (hhi : n ≤ range.hi) : parseInt range (toString n) = .ok n := by
  obtain ⟨d, cs, hd, hcs⟩ := exists_toDigits_eq n.natAbs
  have hsign : ∀ d < 10, Nat.digitChar d ≠ '+' ∧ Nat.digitChar d ≠ '-' := by decide
  rw [parseInt, toList_toString_int]
  split_ifs with hn
  · have hread := readDigits_toDigits range n.natAbs (by omega)
    rw [hcs] at hread ⊢
    rw [readInt]
    · rw [hread, Int.natAbs_of_nonneg hn]
    all_goals simp [hsign d hd]
  · have hread := readDigits_toDigits_negative range n.natAbs (by omega)
    rw [hcs] at hread ⊢
    rw [readInt]
    · rw [if_pos (by omega), hread, show -(n.natAbs : Int) = n by omega]
    all_goals simp

end ScrapeDiscovery.Text

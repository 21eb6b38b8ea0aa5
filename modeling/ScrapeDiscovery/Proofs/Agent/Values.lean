import ScrapeDiscovery.Agent.Environment
import ScrapeDiscovery.Proofs.Text.Canonical

/-!
# Texts of variables that are kept

The text of a variable is taken for a truth value or a number if it can be, and where an option
holds a text, the value is written again as one. A truth value is kept as it is if it is in
small letters, an integer if it is canonical, and any other number if it is the plain text of
itself.

Results:
* `VariableValue.asText_ofText_eq_iff`: which texts are kept.
* `VariableValue.asText_ofText_ne_empty`: no text but the empty one is written as an empty text.
-/

namespace ScrapeDiscovery

/-! ## The plain text of a double -/

namespace Decimal

variable {negative : Bool} {cs : List Char}

theorem positional_ne_nil (d : Decimal) : d.positional ≠ [] := by
  unfold positional
  dsimp only
  split_ifs
  · obtain ⟨c, cs, -, hdigits⟩ := Text.exists_toDigits_eq d.digits
    rw [digitText, hdigits]
    exact List.cons_ne_nil _ _
  · exact List.append_ne_nil_of_right_ne_nil _ (List.cons_ne_nil _ _)
  · exact List.cons_ne_nil _ _

theorem signed_ne_empty (hcs : cs ≠ []) : signed negative cs ≠ "" := by
  intro hempty
  have htext := congrArg String.toList hempty
  rw [signed, String.toList_ofList] at htext
  split at htext
  · cases htext
  · exact hcs htext

end Decimal

namespace Double

theorem plainText_ne_empty (x : Double) : x.plainText ≠ "" := by
  cases x with
  | nan => exact (by decide : "NaN" ≠ "")
  | infinite negative => exact Decimal.signed_ne_empty (List.cons_ne_nil _ _)
  | finite negative m e => exact Decimal.signed_ne_empty (Decimal.positional_ne_nil _)

end Double

/-! ## Texts that are kept -/

namespace VariableValue

/-- A text that is kept when it is taken for a value and written again. -/
structure IsKept (s : String) : Prop where
  /-- A truth value is in small letters. -/
  truth : small s = "true" ∨ small s = "false" → small s = s
  /-- An integer is spelled as integers are written. -/
  integer : ∀ n, Text.parseInt .int64 s = .ok n → Text.isCanonical s.toList = true
  /-- Any other number is spelled as doubles are written. -/
  double : ∀ e x, Text.parseInt .int64 s = .error e → Double.parse? s = some x → x.plainText = s

variable {s : String}

theorem isKept_of_text {e : Text.NumeralError}
    (htruth : small s = "true" ∨ small s = "false" → small s = s)
    (hinteger : Text.parseInt .int64 s = .error e) (hdouble : Double.parse? s = none) :
    IsKept s := by
  refine ⟨htruth, fun n hn => ?_, fun e x _ hx => ?_⟩
  · rw [hinteger] at hn
    cases hn
  · rw [hdouble] at hx
    cases hx

theorem isKept_iff_of_truth {word : String} (hs : small s = word)
    (hword : word = "true" ∨ word = "false") : IsKept s ↔ word = s := by
  refine ⟨fun h => hs.symm.trans (h.truth (hs ▸ hword)), ?_⟩
  rintro rfl
  rcases hword with rfl | rfl
  · exact isKept_of_text (e := .invalidDigit) (fun _ => hs) (by decide +kernel) (by decide +kernel)
  · exact isKept_of_text (e := .invalidDigit) (fun _ => hs) (by decide +kernel) (by decide +kernel)

theorem isKept_iff_of_integer {n : Int} (hword : ¬ (small s = "true" ∨ small s = "false"))
    (hinteger : Text.parseInt .int64 s = .ok n) : IsKept s ↔ toString n = s := by
  rw [eq_comm (b := s), Text.eq_toString_iff hinteger]
  refine ⟨fun h => h.integer n hinteger, fun h => ⟨(absurd · hword), fun _ _ => h, ?_⟩⟩
  intro e x he
  rw [hinteger] at he
  cases he

theorem isKept_iff_of_double {e : Text.NumeralError} {x : Double}
    (hword : ¬ (small s = "true" ∨ small s = "false"))
    (hinteger : Text.parseInt .int64 s = .error e) (hdouble : Double.parse? s = some x) :
    IsKept s ↔ x.plainText = s := by
  refine ⟨fun h => h.double e x hinteger hdouble, fun h => ⟨(absurd · hword), ?_, ?_⟩⟩
  · intro n hn
    rw [hinteger] at hn
    cases hn
  · intro e' x' _ hx'
    rw [hdouble] at hx'
    rw [← Option.some.inj hx', h]

/-- The texts that are kept. -/
theorem asText_ofText_eq_iff : (ofText s).asText = s ↔ IsKept s := by
  unfold ofText
  split
  · next htrue => exact (isKept_iff_of_truth htrue (Or.inl rfl)).symm
  split
  · next hfalse => exact (isKept_iff_of_truth hfalse (Or.inr rfl)).symm
  next htrue hfalse =>
  have hword := not_or.mpr ⟨htrue, hfalse⟩
  cases hinteger : Text.parseInt .int64 s with
  | ok n => exact (isKept_iff_of_integer hword hinteger).symm
  | error e =>
    cases hdouble : Double.parse? s with
    | some x => exact (isKept_iff_of_double hword hinteger hdouble).symm
    | none => exact iff_of_true rfl (isKept_of_text (absurd · hword) hinteger hdouble)

/-- Nothing is written as an empty text but an empty text. -/
theorem asText_ofText_ne_empty (hs : s ≠ "") : (ofText s).asText ≠ "" := by
  unfold ofText
  split
  · exact (by decide : "true" ≠ "")
  split
  · exact (by decide : "false" ≠ "")
  cases Text.parseInt .int64 s with
  | ok n =>
    intro (hn : toString n = "")
    have hcanonical := Text.isCanonical_toString n
    rw [hn] at hcanonical
    exact absurd hcanonical (by decide)
  | error e =>
    cases Double.parse? s with
    | some x => exact x.plainText_ne_empty
    | none => exact hs

end VariableValue

end ScrapeDiscovery

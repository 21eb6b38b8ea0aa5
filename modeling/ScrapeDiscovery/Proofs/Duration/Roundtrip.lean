import Mathlib.Algebra.Ring.Nat
import Mathlib.Tactic.Common
import ScrapeDiscovery.Duration.Parser
import ScrapeDiscovery.Duration.Printer
import ScrapeDiscovery.Proofs.Text.Digits

/-!
# Reading written durations

A written duration is a sequence of counts with units, each taken from what the larger
ones leave. Reading adds them up again. Units of whole seconds add to the seconds and
the others to the nanoseconds, and neither ever exceeds what was written, so every
duration is read back, up to the longest one.

Results:
* `scan_render`: reading one count with its unit.
* `sum_terms`: the written counts amount to the duration.
* `parse_render`: reading what was written.
-/

namespace ScrapeDiscovery.Duration

/-! ## One count with its unit -/

theorem isDigit_digitChar : ∀ d < 10, isDigit (Nat.digitChar d) = true := by decide

theorem digit_digitChar : ∀ d < 10, digit (Nat.digitChar d) = d := by decide

/-- A number that fits is read digit by digit. -/
theorem scan_toDigits {n : Nat} (hn : n < wordLimit) (position pos : Nat) (anyRead : Bool)
    (out : Duration) (cs : List Char) :
    ∃ pos', scan (.number position anyRead) out pos (Nat.toDigits 10 n ++ cs) =
      scan (.whole n) out pos' cs := by
  induction n using Text.toDigits_induction generalizing cs with
  | hdigit d hd =>
    refine ⟨pos + (Nat.digitChar d).utf8Size, ?_⟩
    rw [List.singleton_append, scan]
    simp only [isDigit_digitChar d hd, digit_digitChar d hd, if_true]
  | happend n d ds hpos hd ih =>
    obtain ⟨pos', hrest⟩ := ih (by omega) (Nat.digitChar d :: cs)
    refine ⟨pos' + (Nat.digitChar d).utf8Size, ?_⟩
    rw [List.append_assoc, List.singleton_append, hrest, scan]
    simp only [isDigit_digitChar d hd, digit_digitChar d hd, if_true, fit, if_pos hn]
    rfl

/-- Whether `c` can be nothing but a letter of a unit. -/
def isLetter (c : Char) : Bool := isUnitLetter c && !isDigit c && !Text.isBlank c

theorem isLetter_iff {c : Char} :
    isLetter c = true ↔ isUnitLetter c = true ∧ isDigit c = false ∧ Text.isBlank c = false := by
  simp [isLetter, and_assoc]

theorem scan_letters {letters : List Char} (hletters : letters.all isLetter = true)
    (value pos : Nat) (name : List Char) (out : Duration) (cs : List Char) :
    ∃ pos', scan (.unit value none name) out pos (letters ++ cs) =
      scan (.unit value none (name ++ letters)) out pos' cs := by
  induction letters generalizing pos name with
  | nil => exact ⟨pos, by rw [List.append_nil, List.nil_append]⟩
  | cons c letters ih =>
    obtain ⟨hc, hrest⟩ := (Bool.and_eq_true _ _).mp hletters
    obtain ⟨hletter, hdigit, hblank⟩ := isLetter_iff.mp hc
    obtain ⟨pos', hread⟩ := ih hrest (pos + c.utf8Size) (name ++ [c])
    refine ⟨pos', ?_⟩
    rw [List.append_assoc, List.singleton_append] at hread
    rw [← hread, List.cons_append, scan]
    simp [hletter, hdigit, hblank]

/-- The names of units are letters, and they name their unit. -/
theorem written_spec (u : TimeUnit) (count : Nat) :
    ∃ c letters, (u.written count).toList = c :: letters ∧ isLetter c = true ∧
      letters.all isLetter = true ∧ TimeUnit.ofName? (u.written count) = some u := by
  cases u with
  | day | week | month | year =>
    simp only [TimeUnit.written]
    split <;> exact ⟨_, _, rfl, rfl, rfl, rfl⟩
  | _ =>
    simp only [TimeUnit.written]
    exact ⟨_, _, rfl, rfl, rfl, rfl⟩

/-- A count that fits is read up to the end of its unit. -/
theorem scan_render {t : Term} (ht : t.count < wordLimit) (position pos : Nat) (anyRead : Bool)
    (out : Duration) (cs : List Char) :
    ∃ pos', scan (.number position anyRead) out pos (t.render.toList ++ cs) =
      scan (.unit t.count none (t.unit.written t.count).toList) out pos' cs := by
  obtain ⟨c, letters, hname, hc, hletters, -⟩ := written_spec t.unit t.count
  obtain ⟨hletter, hdigit, hblank⟩ := isLetter_iff.mp hc
  obtain ⟨pos', hcount⟩ := scan_toDigits ht position pos anyRead out (c :: letters ++ cs)
  obtain ⟨pos'', hunit⟩ := scan_letters hletters t.count (pos' + c.utf8Size) [c] out cs
  refine ⟨pos'', ?_⟩
  rw [Term.render, String.toList_append, Text.toList_toString_nat, hname, List.append_assoc,
    hcount, List.cons_append, scan]
  simp only [hdigit, hblank, hletter, if_true, Bool.false_eq_true, if_false]
  exact hunit

/-! ## The sum of all counts -/

/-- The whole seconds of a unit. -/
def TimeUnit.secs (u : TimeUnit) : Nat :=
  match u.amount with
  | .secs n => n
  | .nanos _ => 0

/-- The nanoseconds of a unit of less than a second. -/
def TimeUnit.nanos (u : TimeUnit) : Nat :=
  match u.amount with
  | .secs _ => 0
  | .nanos n => n

/-- The whole seconds of a term. -/
def Term.secs (t : Term) : Nat := t.count * t.unit.secs

/-- The nanoseconds of a term of less than whole seconds. -/
def Term.nanos (t : Term) : Nat := t.count * t.unit.nanos

theorem Term.count_le (t : Term) : t.count ≤ t.secs ∨ t.count ≤ t.nanos := by
  have hunit : 1 ≤ t.unit.secs ∨ 1 ≤ t.unit.nanos := by cases t.unit <;> decide
  exact hunit.imp (Nat.le_mul_of_pos_right t.count) (Nat.le_mul_of_pos_right t.count)

/-- Adding a term to a duration that leaves room for it. -/
theorem addTerm_written {d out : Duration} {t : Term} (hsecs : out.secs + t.secs ≤ d.secs)
    (hnanos : out.nanos + t.nanos ≤ d.nanos) :
    ∃ out', addTerm out t.count none (t.unit.written t.count).toList = .ok out' ∧
      out'.secs = out.secs + t.secs ∧ out'.nanos = out.nanos + t.nanos := by
  obtain ⟨c, letters, hname, -, -, hunit⟩ := written_spec t.unit t.count
  have hd := d.secs_lt
  have hd' := d.nanos_lt
  have hnonempty : (t.unit.written t.count).toList.isEmpty = false := by rw [hname]; rfl
  have hadd : addTerm out t.count none (t.unit.written t.count).toList =
      (t.unit.amount.times t.count).bind out.plus := by
    simp only [addTerm, String.ofList_toList, hunit, hnonempty, Bool.false_eq_true, if_false]
    cases t.unit.amount.times t.count with
    | error e => rfl
    | ok a =>
      show (out.plus a).bind Except.ok = out.plus a
      cases out.plus a <;> rfl
  rw [hadd]
  simp only [Term.secs, Term.nanos, TimeUnit.secs, TimeUnit.nanos] at hsecs hnanos ⊢
  cases hamount : t.unit.amount with
  | secs n =>
    simp only [hamount, Nat.mul_zero] at hsecs hnanos ⊢
    have hfit : t.count * n < wordLimit := by unfold wordLimit; omega
    have hroom : out.secs + t.count * n < 18446744073709551616 := by omega
    refine ⟨⟨out.secs + t.count * n, out.nanos, hroom, out.nanos_lt⟩, ?_, rfl, rfl⟩
    simp [Amount.times, fit, hfit, plus, hroom, Except.map, Except.bind]
  | nanos n =>
    simp only [hamount, Nat.mul_zero] at hsecs hnanos ⊢
    have hfit : t.count * n < wordLimit := by unfold wordLimit; omega
    have hroom : out.nanos + t.count * n < wordLimit := by unfold wordLimit; omega
    have hroom' : out.secs + (out.nanos + t.count * n) / 1000000000 < 18446744073709551616 := by
      omega
    refine ⟨⟨_, _, hroom', Nat.mod_lt (out.nanos + t.count * n) (by decide)⟩, ?_, ?_, ?_⟩
    · simp [Amount.times, fit, hfit, plus, hroom, hroom', Except.map, Except.bind]
    · show out.secs + (out.nanos + t.count * n) / 1000000000 = out.secs + 0
      omega
    · show (out.nanos + t.count * n) % 1000000000 = _
      omega

/-- Reading counts that sum up to `d`. -/
theorem scan_terms {d : Duration} {ts : List Term} (hne : ts ≠ []) {out : Duration}
    (hsecs : out.secs + (ts.map Term.secs).sum = d.secs)
    (hnanos : out.nanos + (ts.map Term.nanos).sum = d.nanos) (position pos : Nat)
    (anyRead : Bool) :
    scan (.number position anyRead) out pos (" ".intercalate (ts.map Term.render)).toList =
      .ok d := by
  induction ts generalizing out position pos anyRead with
  | nil => exact absurd rfl hne
  | cons t ts ih =>
    rw [List.map_cons, List.sum_cons] at hsecs hnanos
    have hlt : t.count < wordLimit := by
      have hcount := t.count_le
      have hd := d.secs_lt
      have hd' := d.nanos_lt
      unfold wordLimit
      omega
    have hadd := @addTerm_written d out t (by omega) (by omega)
    obtain ⟨out', hadd, hsecs', hnanos'⟩ := hadd
    cases ts with
    | nil =>
      obtain ⟨pos', hread⟩ := scan_render hlt position pos anyRead out []
      have hout : out' = d := by
        refine eq_of_total_eq ?_
        simp only [List.map_nil, List.sum_nil] at hsecs hnanos
        rw [total, total, hsecs', hnanos', ← hsecs, ← hnanos, Nat.add_zero, Nat.add_zero]
      rw [List.append_nil] at hread
      rw [List.map_cons, List.map_nil, String.intercalate_singleton, hread, scan, hadd, hout]
    | cons t' ts =>
      obtain ⟨pos', hread⟩ := scan_render hlt position pos anyRead out
        (' ' :: (" ".intercalate ((t' :: ts).map Term.render)).toList)
      have hblank : scan (.unit t.count none (t.unit.written t.count).toList) out pos'
          (' ' :: (" ".intercalate ((t' :: ts).map Term.render)).toList) =
          scan (.number (pos' + ' '.utf8Size) true) out' (pos' + ' '.utf8Size)
            (" ".intercalate ((t' :: ts).map Term.render)).toList := by
        rw [scan, hadd]
        rfl
      have hrest := @ih (List.cons_ne_nil t' ts) out' (by omega) (by omega)
        (pos' + ' '.utf8Size) (pos' + ' '.utf8Size) true
      rw [List.map_cons, String.intercalate_cons_of_ne_nil (by simp), String.toList_append,
        String.toList_append, List.append_assoc]
      rw [← hrest, ← hblank, ← hread]
      rfl

/-- Each unit takes its count from what the larger ones leave. -/
theorem sum_terms (d : Duration) :
    (d.terms.map Term.secs).sum = d.secs ∧ (d.terms.map Term.nanos).sum = d.nanos := by
  have hmilli : d.nanos / 1000000 = d.nanos / 1000 / 1000 :=
    (Nat.div_div_eq_div_mul d.nanos 1000 1000).symm
  have hmillis (n : Nat) : n * 1000000 = n * 1000 * 1000 := (Nat.mul_assoc n 1000 1000).symm
  have hsecond (n : Nat) : n % 60 = n % 3600 % 60 := (Nat.mod_mod_of_dvd n (by decide)).symm
  -- as a local fact, since the kernel would count down the units to unfold a sum of products
  have hsum (n : Nat) (ns : List Nat) : (n :: ns).sum = n + ns.sum := List.sum_cons
  simp only [terms, Term.secs, Term.nanos, List.map_cons, List.map_nil, hsum, List.sum_nil]
  simp only [TimeUnit.secs, TimeUnit.nanos, TimeUnit.amount, Nat.mul_one, Nat.mul_zero,
    Nat.add_zero, Nat.zero_add]
  constructor
  · rw [hsecond (d.secs % 31557600 % 2630016 % 86400)]
    simp only [Nat.div_add_mod']
  · rw [hmilli, hmillis, ← Nat.add_assoc, ← Nat.add_mul, Nat.div_add_mod', Nat.div_add_mod']

/-- Counts of zero do not matter. -/
theorem sum_filter {f : Term → Nat} (hf : ∀ t, t.count = 0 → f t = 0) (ts : List Term) :
    ((ts.filter (·.count ≠ 0)).map f).sum = (ts.map f).sum := by
  induction ts with
  | nil => rfl
  | cons t ts ih =>
    rw [List.map_cons, List.sum_cons]
    by_cases ht : t.count = 0
    · rw [List.filter_cons_of_neg (by simp [ht]), ih, hf t ht, Nat.zero_add]
    · rw [List.filter_cons_of_pos (by simp [ht]), List.map_cons, List.sum_cons, ih]

theorem Term.eq_zero_of_count {t : Term} (ht : t.count = 0) : t.secs = 0 ∧ t.nanos = 0 := by
  rw [Term.secs, Term.nanos, ht, Nat.zero_mul, Nat.zero_mul]
  exact ⟨rfl, rfl⟩

/-- A duration is read back from what was written. -/
theorem parse_render (d : Duration) : parse d.render = .ok d := by
  by_cases hzero : d.isZero = true
  · have hd : d = zero := by
      obtain ⟨hsecs, hnanos⟩ := (Bool.and_eq_true _ _).mp hzero
      obtain ⟨secs, nanos, _, _⟩ := d
      obtain rfl : secs = 0 := eq_of_beq hsecs
      obtain rfl : nanos = 0 := eq_of_beq hnanos
      rfl
    rw [hd]
    rfl
  obtain ⟨hsecs, hnanos⟩ := d.sum_terms
  rw [← sum_filter fun t ht => (Term.eq_zero_of_count ht).1] at hsecs
  rw [← sum_filter fun t ht => (Term.eq_zero_of_count ht).2] at hnanos
  have hne : d.terms.filter (·.count ≠ 0) ≠ [] := by
    intro hnil
    rw [hnil] at hsecs hnanos
    refine hzero ?_
    rw [isZero, ← hsecs, ← hnanos]
    rfl
  have hrender : d.render = " ".intercalate ((d.terms.filter (·.count ≠ 0)).map Term.render) := by
    rw [render, if_neg hzero]
  have hscan : scan (.number 0 false) zero 0 d.render.toList = .ok d := by
    rw [hrender]
    exact scan_terms hne (by rw [← hsecs]; exact Nat.zero_add _)
      (by rw [← hnanos]; exact Nat.zero_add _) 0 0 false
  rw [parse, if_neg]
  · exact hscan
  · -- a bare number has no unit
    intro hbare
    rw [hbare] at hscan
    cases hscan

end ScrapeDiscovery.Duration

import Mathlib.Tactic.Common
import ScrapeDiscovery.Json.Parser
import ScrapeDiscovery.Json.Printer
import ScrapeDiscovery.Proofs.Json.Values
import ScrapeDiscovery.Proofs.Text.Digits

/-!
# Reading what was written as JSON

A value on one line is read back as it was. Inside a text the escapes that the writer
chooses are undone one by one. The reader stops where a value ends, since nothing but a
comma or a closing bracket or brace follows it there, and the length of the line is
enough for its recursion.

Results:
* `readText_quote`: texts with any characters.
* `readNumber?_toString`, `int?_int`: integers, as they are written and as numbers of a range.
* `readValue_compact`: values.
* `parse_compact`: documents.
-/

namespace ScrapeDiscovery.Json

/-! ## Texts -/

theorem readText_plain {c : Char} (hquote : c ≠ '"') (hescape : c ≠ '\\') (hc : ¬c < ' ')
    (acc cs : List Char) : readText none acc (c :: cs) = readText none (c :: acc) cs := by
  rw [readText]
  · simp [hc]
  all_goals simp [hquote, hescape]

theorem readText_shortEscape {e x : Char} (he : shortEscape? e = some x) (acc cs : List Char) :
    readText none acc ('\\' :: e :: cs) = readText none (x :: acc) cs := by
  rw [readText]
  · -- a code unit is no short escape
    rintro a b c d cs' rfl -
    cases he
  · exact he

/-- Control characters without a short escape are written as code units. -/
theorem readText_control {c : Char} (hc : c < ' ') (acc cs : List Char) :
    readText none acc ('\\' :: 'u' :: '0' :: '0' :: Nat.digitChar (c.toNat / 16) ::
      Nat.digitChar (c.toNat % 16) :: cs) = readText none (c :: acc) cs := by
  have hall : ∀ n < 32, (hex4? '0' '0' (Nat.digitChar (n / 16)) (Nat.digitChar (n % 16))).bind
      (codeUnit? none) = some (.inr (Char.ofNat n)) := by decide
  have hunit := hall c.toNat hc
  rw [Char.ofNat_toNat] at hunit
  rw [readText, hunit]

theorem readText_escapeChar (c : Char) (acc cs : List Char) :
    readText none acc (escapeChar c ++ cs) = readText none (c :: acc) cs := by
  unfold escapeChar
  split
  all_goals try exact readText_shortEscape rfl acc cs
  split_ifs with hc
  · exact readText_control hc acc cs
  · refine readText_plain ?_ ?_ hc acc cs <;> assumption

theorem readText_quote (s : String) (rest : List Char) :
    readText none [] (s.toList.flatMap escapeChar ++ '"' :: rest) = some (s, rest) := by
  have hall : ∀ cs acc, readText none acc (cs.flatMap escapeChar ++ '"' :: rest) =
      some (String.ofList (acc.reverse ++ cs), rest) := by
    intro cs
    induction cs with
    | nil =>
      intro acc
      rw [List.append_nil]
      rfl
    | cons c cs ih =>
      intro acc
      rw [List.flatMap_cons, List.append_assoc, readText_escapeChar, ih, List.reverse_cons,
        List.append_assoc]
      rfl
  rw [hall, List.reverse_nil, List.nil_append, String.ofList_toList]

/-! ## Numbers -/

/-- What may follow a value on one line: nothing, or the end of an item, a list or an object. -/
def Ends (rest : List Char) : Prop := ∀ c ∈ rest.head?, c = ',' ∨ c = ']' ∨ c = '\x7d'

theorem ends_comma (rest : List Char) : Ends (',' :: rest) := by rintro c ⟨⟩; simp

theorem ends_bracket (rest : List Char) : Ends (']' :: rest) := by rintro c ⟨⟩; simp

theorem ends_brace (rest : List Char) : Ends ('\x7d' :: rest) := by rintro c ⟨⟩; simp

variable {rest : List Char}

theorem isDigit_digitChar : ∀ d < 10, isDigit (Nat.digitChar d) = true := by decide

theorem Ends.isDigit_head (hrest : Ends rest) : ∀ c ∈ rest.head?, isDigit c = false := by
  intro c hc
  rcases hrest c hc with rfl | rfl | rfl <;> rfl

theorem readDigits?_toDigits (n : Nat) (hrest : Ends rest) :
    readDigits? (Nat.toDigits 10 n ++ rest) = some (Nat.toDigits 10 n, rest) := by
  have hdigits := Text.all_toDigits isDigit_digitChar n
  have hstop : rest.takeWhile isDigit = [] ∧ rest.dropWhile isDigit = rest := by
    cases rest with
    | nil => exact ⟨rfl, rfl⟩
    | cons c cs =>
      have hc := hrest.isDigit_head c rfl
      exact ⟨List.takeWhile_cons_of_neg (by simp [hc]), List.dropWhile_cons_of_neg (by simp [hc])⟩
  unfold readDigits?
  rw [List.takeWhile_append_of_pos hdigits, List.dropWhile_append_of_pos hdigits, hstop.1,
    hstop.2, List.append_nil]
  split
  · next h => exact absurd h Nat.toDigits_ne_nil
  · rfl

theorem readWhole?_toDigits (n : Nat) (hrest : Ends rest) :
    readWhole? (Nat.toDigits 10 n ++ rest) = some (Nat.toDigits 10 n, rest) := by
  rcases Nat.eq_zero_or_pos n with rfl | hn
  · show readWhole? ('0' :: rest) = some (['0'], rest)
    have hhead : (rest.head?.map isDigit).getD false = false := by
      cases hc : rest.head? with
      | none => rfl
      | some c => exact hrest.isDigit_head c hc
    rw [readWhole?, hhead]
    rfl
  · obtain ⟨d, cs, hd, hlt, hcs⟩ := Text.exists_toDigits_eq_cons hn
    have hzero : ∀ d < 10, 0 < d → Nat.digitChar d ≠ '0' := by decide
    have hdigits := readDigits?_toDigits n hrest
    rw [hcs] at hdigits ⊢
    rw [List.cons_append, readWhole?]
    · exact hdigits
    · intro _ hhead
      exact hzero d hlt hd (List.cons.inj hhead).1

theorem readFraction?_of_ends (hrest : Ends rest) : readFraction? rest = some ([], rest) := by
  rw [readFraction?]
  rintro cs rfl
  simpa using hrest '.' rfl

theorem readExponent?_of_ends (hrest : Ends rest) : readExponent? rest = some ([], rest) := by
  cases rest with
  | nil => rfl
  | cons c cs => rcases hrest c rfl with rfl | rfl | rfl <;> rfl

theorem readNumber?_toString (n : Int) (hrest : Ends rest) :
    readNumber? ((toString n).toList ++ rest) = some (toString n, rest) := by
  have hwhole := readWhole?_toDigits n.natAbs hrest
  have hlexeme : toString n = String.ofList (toString n).toList := String.ofList_toList.symm
  rw [hlexeme, String.toList_ofList, Text.toList_toString_int]
  split_ifs with hn
  · rw [readNumber?]
    · simp [hwhole, readFraction?_of_ends hrest, readExponent?_of_ends hrest]
    · obtain ⟨d, cs, hd, hcs⟩ := Text.exists_toDigits_eq n.natAbs
      have hminus : ∀ d < 10, Nat.digitChar d ≠ '-' := by decide
      intro _ hhead
      rw [hcs] at hhead
      exact hminus d hd (List.cons.inj hhead).1
  · rw [List.cons_append, readNumber?]
    simp [hwhole, readFraction?_of_ends hrest, readExponent?_of_ends hrest]

theorem isIntegerLexeme_toString (n : Int) : isIntegerLexeme (toString n) = true := by
  have hplain : ∀ d < 10,
      Nat.digitChar d ≠ '.' ∧ Nat.digitChar d ≠ 'e' ∧ Nat.digitChar d ≠ 'E' := by decide
  have hdigits : (Nat.toDigits 10 n.natAbs).all
      (fun c => c ≠ '.' && c ≠ 'e' && c ≠ 'E') = true := by
    refine List.all_eq_true.mpr (Text.all_toDigits (fun d hd => ?_) n.natAbs)
    simp [hplain d hd]
  rw [isIntegerLexeme, Text.toList_toString_int]
  split_ifs
  · exact hdigits
  · rw [List.all_cons, hdigits]
    rfl

/-- Only zero begins with a zero, and it has no sign. -/
theorem toString_ne_minusZero (n : Int) : toString n ≠ "-0" := by
  intro h
  have hlist := congrArg String.toList h
  rw [Text.toList_toString_int] at hlist
  split_ifs at hlist with hn
  · obtain ⟨d, cs, hd, hcs⟩ := Text.exists_toDigits_eq n.natAbs
    have hminus : ∀ d < 10, Nat.digitChar d ≠ '-' := by decide
    rw [hcs] at hlist
    exact hminus d hd (List.cons.inj hlist).1
  · obtain ⟨d, cs, hpos, hd, hcs⟩ := Text.exists_toDigits_eq_cons (n := n.natAbs) (by omega)
    have hzero : ∀ d < 10, 0 < d → Nat.digitChar d ≠ '0' := by decide
    rw [hcs] at hlist
    exact hzero d hd hpos (List.cons.inj (List.cons.inj hlist).2).1

/-- An integer is read back wherever it lies in the range that is read into. -/
theorem int?_int {range : Text.IntRange} {n : Int} (hlo : range.lo ≤ n)
    (hhi : n ≤ range.hi) : (int n).int? range = some n := by
  have hlexeme : (isIntegerLexeme (toString n) && toString n ≠ "-0") = true :=
    (Bool.and_eq_true _ _).mpr
      ⟨isIntegerLexeme_toString n, decide_eq_true (toString_ne_minusZero n)⟩
  rw [int, int?, if_pos hlexeme, Text.parseInt_toString hlo hhi]
  rfl

/-! ## Lines -/

theorem toList_compact_list (xs : List Json) :
    (compact (.list xs)).toList = '[' :: ((compactItems xs).toList ++ [']']) := by
  rw [compact, String.toList_append, String.toList_append]
  rfl

theorem toList_compact_object (ms : List (String × Json)) :
    (compact (.object ms)).toList = '\x7b' :: ((compactMembers ms).toList ++ ['\x7d']) := by
  rw [compact, String.toList_append, String.toList_append]
  rfl

theorem toList_quote (s : String) :
    (quote s).toList = '"' :: (s.toList.flatMap escapeChar ++ ['"']) := by
  rw [quote, String.toList_ofList]

theorem toList_compactItems (x y : Json) (xs : List Json) :
    (compactItems (x :: y :: xs)).toList =
      x.compact.toList ++ ',' :: (compactItems (y :: xs)).toList := by
  rw [compactItems, String.toList_append, String.toList_append, List.append_assoc]
  · rfl
  · exact nofun

theorem toList_compactMember (k : String) (v : Json) :
    (compactMembers [(k, v)]).toList = (quote k).toList ++ ':' :: v.compact.toList := by
  rw [compactMembers, String.toList_append, String.toList_append, List.append_assoc]
  rfl

theorem toList_compactMembers (k : String) (v : Json) (m : String × Json)
    (ms : List (String × Json)) :
    (compactMembers ((k, v) :: m :: ms)).toList =
      (quote k).toList ++
        ':' :: (v.compact.toList ++ ',' :: (compactMembers (m :: ms)).toList) := by
  rw [compactMembers, String.toList_append, String.toList_append, String.toList_append,
    String.toList_append]
  · simp
  · exact nofun

theorem toList_compact_null : (compact .null).toList = ['n', 'u', 'l', 'l'] := by decide

theorem toList_compact_true : (compact (.bool true)).toList = ['t', 'r', 'u', 'e'] := by decide

theorem toList_compact_false :
    (compact (.bool false)).toList = ['f', 'a', 'l', 's', 'e'] := by decide

theorem exists_members_eq_cons (m : String × Json) (ms : List (String × Json)) :
    ∃ cs, (compactMembers (m :: ms)).toList = '"' :: cs := by
  obtain ⟨k, v⟩ := m
  cases ms with
  | nil => exact ⟨_, by rw [toList_compactMember, toList_quote, List.cons_append]⟩
  | cons m ms => exact ⟨_, by rw [toList_compactMembers, toList_quote, List.cons_append]⟩

/-! ## What a value begins with -/

theorem exists_toString_eq_cons (n : Int) :
    ∃ c cs, (toString n).toList = c :: cs ∧ (isDigit c = true ∨ c = '-') := by
  obtain ⟨d, cs, hd, hcs⟩ := Text.exists_toDigits_eq n.natAbs
  rw [Text.toList_toString_int, hcs]
  split_ifs
  · exact ⟨_, cs, rfl, Or.inl (isDigit_digitChar d hd)⟩
  · exact ⟨'-', _, rfl, Or.inr rfl⟩

/-- The characters that a value may begin with. -/
def isStart (c : Char) : Bool :=
  isDigit c || ['-', '"', '[', '\x7b', 'n', 't', 'f'].contains c

theorem isStart_of_number {c : Char} (hc : isDigit c = true ∨ c = '-') : isStart c = true := by
  rcases hc with hc | rfl
  · rw [isStart, hc, Bool.true_or]
  · rfl

theorem isStart_head {j : Json} (hj : j.IsIntegral) :
    ∃ c cs, j.compact.toList = c :: cs ∧ isStart c = true := by
  cases j with
  | null => exact ⟨'n', _, toList_compact_null, rfl⟩
  | bool b =>
    cases b
    · exact ⟨'f', _, toList_compact_false, rfl⟩
    · exact ⟨'t', _, toList_compact_true, rfl⟩
  | number l =>
    obtain ⟨n, rfl⟩ := hj
    obtain ⟨c, cs, hcs, hc⟩ := exists_toString_eq_cons n
    exact ⟨c, cs, hcs, isStart_of_number hc⟩
  | text s => exact ⟨'"', _, by rw [compact, toList_quote], rfl⟩
  | list xs => exact ⟨'[', _, toList_compact_list xs, rfl⟩
  | object ms => exact ⟨'\x7b', _, toList_compact_object ms, rfl⟩

theorem isStart_items (x : Json) (xs : List Json) (hx : x.IsIntegral) :
    ∃ c cs, (compactItems (x :: xs)).toList = c :: cs ∧ isStart c = true := by
  obtain ⟨c, cs, hcs, hc⟩ := isStart_head hx
  cases xs with
  | nil => exact ⟨c, cs, by rw [compactItems, hcs], hc⟩
  | cons y ys =>
    refine ⟨c, cs ++ ',' :: (compactItems (y :: ys)).toList, ?_, hc⟩
    rw [toList_compactItems, hcs, List.cons_append]

theorem skipBlank_of_isStart {c : Char} (hc : isStart c = true) (cs : List Char) :
    skipBlank (c :: cs) = c :: cs := by
  refine List.dropWhile_cons_of_neg ?_
  intro hblank
  simp only [Bool.or_eq_true, beq_iff_eq] at hblank
  rcases hblank with ((rfl | rfl) | rfl) | rfl <;> exact absurd hc (by decide)

/-- What begins like a number is read as one. -/
theorem readValue_number {c : Char} (hc : isDigit c = true ∨ c = '-') (fuel : Nat)
    (cs : List Char) :
    readValue (fuel + 1) (c :: cs) =
      (readNumber? (c :: cs)).map fun (l, cs) => (.number l, cs) := by
  rw [readValue, skipBlank_of_isStart (isStart_of_number hc)]
  split
  all_goals first
    | rfl
    | next h =>
      cases h
      rcases hc with hc | hc <;> cases hc

theorem readValue_list {c : Char} (hc : isStart c = true) (fuel : Nat) (cs : List Char) :
    readValue (fuel + 1) ('[' :: c :: cs) =
      (readItems fuel (c :: cs)).map fun (xs, cs) => (.list xs, cs) := by
  rw [readValue, skipBlank_of_isStart rfl]
  simp only [skipBlank_of_isStart hc]
  split
  · next h =>
    cases h
    cases hc
  · rfl

theorem readValue_object (fuel : Nat) (cs : List Char) :
    readValue (fuel + 1) ('\x7b' :: '"' :: cs) =
      (readMembers fuel ('"' :: cs)).map fun (ms, cs) => (.object ms, cs) := by
  rw [readValue]
  rfl

/-! ## Reading items and members -/

section Steps

variable {x v : Json} {xs : List Json} {k : String} {ms : List (String × Json)}
  {cs cs' rest : List Char} {fuel : Nat}

theorem readItems_last (h : readValue fuel cs = some (x, ']' :: rest)) :
    readItems (fuel + 1) cs = some ([x], rest) := by
  rw [readItems, h]
  rfl

theorem readItems_more (h : readValue fuel cs = some (x, ',' :: cs'))
    (hxs : readItems fuel cs' = some (xs, rest)) :
    readItems (fuel + 1) cs = some (x :: xs, rest) := by
  have hcomma : skipBlank (',' :: cs') = ',' :: cs' := rfl
  rw [readItems, h]
  simp [hcomma, hxs]

theorem readMembers_last (h : readValue fuel cs = some (v, '\x7d' :: rest)) :
    readMembers (fuel + 1) ((quote k).toList ++ ':' :: cs) = some ([(k, v)], rest) := by
  have hcolon : skipBlank (':' :: cs) = ':' :: cs := rfl
  have hbrace : skipBlank ('\x7d' :: rest) = '\x7d' :: rest := rfl
  rw [toList_quote, readMembers, List.cons_append, skipBlank_of_isStart rfl, List.append_assoc]
  simp [readText_quote, hcolon, h, hbrace]

theorem readMembers_more (h : readValue fuel cs = some (v, ',' :: cs'))
    (hms : readMembers fuel cs' = some (ms, rest)) :
    readMembers (fuel + 1) ((quote k).toList ++ ':' :: cs) = some ((k, v) :: ms, rest) := by
  have hcolon : skipBlank (':' :: cs) = ':' :: cs := rfl
  have hcomma : skipBlank (',' :: cs') = ',' :: cs' := rfl
  rw [toList_quote, readMembers, List.cons_append, skipBlank_of_isStart rfl, List.append_assoc]
  simp [readText_quote, hcolon, h, hcomma, hms]

end Steps

/-! ## Reading values back -/

/-- Whether a value on one line is read back wherever it ends. -/
def ReadsBack (j : Json) : Prop :=
  ∀ rest, Ends rest → ∀ fuel, j.compact.toList.length ≤ fuel →
    readValue (fuel + 1) (j.compact.toList ++ rest) = some (j, rest)

theorem readItems_compact {xs : List Json} (hne : xs ≠ []) (hread : ∀ x ∈ xs, ReadsBack x)
    (rest : List Char) {fuel : Nat} (hfuel : (compactItems xs).toList.length < fuel) :
    readItems (fuel + 1) ((compactItems xs).toList ++ ']' :: rest) = some (xs, rest) := by
  induction xs generalizing fuel with
  | nil => exact absurd rfl hne
  | cons x xs ih =>
    obtain ⟨fuel, rfl⟩ := Nat.exists_eq_add_one_of_ne_zero (Nat.ne_zero_of_lt hfuel)
    have hx := hread x List.mem_cons_self
    cases xs with
    | nil =>
      rw [compactItems] at hfuel ⊢
      exact readItems_last (hx _ (ends_bracket rest) fuel (Nat.le_of_lt_succ hfuel))
    | cons y ys =>
      rw [toList_compactItems] at hfuel ⊢
      rw [List.length_append, List.length_cons] at hfuel
      rw [List.append_assoc, List.cons_append]
      obtain ⟨fuel, rfl⟩ : ∃ k, fuel = k + 1 := ⟨fuel - 1, by omega⟩
      refine readItems_more (hx _ (ends_comma _) _ (by omega)) ?_
      exact ih (List.cons_ne_nil y ys) (fun z hz => hread z (List.mem_cons_of_mem x hz)) (by omega)

theorem readMembers_compact {ms : List (String × Json)} (hne : ms ≠ [])
    (hread : ∀ m ∈ ms, ReadsBack m.2) (rest : List Char) {fuel : Nat}
    (hfuel : (compactMembers ms).toList.length < fuel) :
    readMembers (fuel + 1) ((compactMembers ms).toList ++ '\x7d' :: rest) = some (ms, rest) := by
  induction ms generalizing fuel with
  | nil => exact absurd rfl hne
  | cons m ms ih =>
    obtain ⟨k, v⟩ := m
    have hv : ReadsBack v := hread (k, v) List.mem_cons_self
    cases ms with
    | nil =>
      rw [toList_compactMember] at hfuel ⊢
      rw [List.length_append, List.length_cons] at hfuel
      rw [List.append_assoc, List.cons_append]
      obtain ⟨fuel, rfl⟩ : ∃ k, fuel = k + 1 := ⟨fuel - 1, by omega⟩
      exact readMembers_last (hv _ (ends_brace rest) _ (by omega))
    | cons m ms =>
      rw [toList_compactMembers] at hfuel ⊢
      rw [List.length_append, List.length_cons, List.length_append, List.length_cons] at hfuel
      rw [List.append_assoc, List.cons_append, List.append_assoc, List.cons_append]
      obtain ⟨fuel, rfl⟩ : ∃ k, fuel = k + 1 := ⟨fuel - 1, by omega⟩
      refine readMembers_more (hv _ (ends_comma _) _ (by omega)) ?_
      exact ih (List.cons_ne_nil m ms) (fun m' hm => hread m' (List.mem_cons_of_mem _ hm))
        (by omega)

theorem readsBack_list {xs : List Json} (hxs : ∀ x ∈ xs, x.IsIntegral)
    (hread : ∀ x ∈ xs, ReadsBack x) :
    ReadsBack (.list xs) := by
  intro rest _ fuel hfuel
  cases xs with
  | nil =>
    rw [toList_compact_list, readValue]
    rfl
  | cons x xs =>
    obtain ⟨c, cs, hcs, hc⟩ := isStart_items x xs (hxs x List.mem_cons_self)
    rw [toList_compact_list, List.length_cons, List.length_append, List.length_singleton] at hfuel
    obtain ⟨fuel, rfl⟩ : ∃ k, fuel = k + 1 := ⟨fuel - 1, by omega⟩
    have hlt : (compactItems (x :: xs)).toList.length < fuel := by omega
    have hitems := readItems_compact (List.cons_ne_nil x xs) hread rest hlt
    rw [toList_compact_list, List.cons_append, List.append_assoc, List.singleton_append]
    rw [hcs, List.cons_append] at hitems ⊢
    rw [readValue_list hc, hitems]
    rfl

theorem readsBack_object {ms : List (String × Json)} (hread : ∀ m ∈ ms, ReadsBack m.2) :
    ReadsBack (.object ms) := by
  intro rest _ fuel hfuel
  cases ms with
  | nil =>
    rw [toList_compact_object, readValue]
    rfl
  | cons m ms =>
    obtain ⟨cs, hcs⟩ := exists_members_eq_cons m ms
    rw [toList_compact_object, List.length_cons, List.length_append, List.length_singleton] at hfuel
    obtain ⟨fuel, rfl⟩ : ∃ k, fuel = k + 1 := ⟨fuel - 1, by omega⟩
    have hlt : (compactMembers (m :: ms)).toList.length < fuel := by omega
    have hmembers := readMembers_compact (List.cons_ne_nil m ms) hread rest hlt
    rw [toList_compact_object, List.cons_append, List.append_assoc, List.singleton_append]
    rw [hcs, List.cons_append] at hmembers ⊢
    rw [readValue_object, hmembers]
    rfl

theorem readsBack_number (n : Int) : ReadsBack (.int n) := by
  intro rest hrest fuel _
  obtain ⟨c, cs, hcs, hc⟩ := exists_toString_eq_cons n
  have hread := readNumber?_toString n hrest
  rw [hcs, List.cons_append] at hread
  rw [int, compact, hcs, List.cons_append, readValue_number hc, hread]
  rfl

theorem readsBack_text (s : String) : ReadsBack (.text s) := by
  intro rest _ fuel _
  rw [compact, toList_quote, List.cons_append, readValue, skipBlank_of_isStart rfl,
    List.append_assoc]
  simp [readText_quote]

theorem readValue_compact {j : Json} (hj : j.IsIntegral) : ReadsBack j := by
  induction j using induction with
  | null =>
    intro rest _ fuel _
    rw [toList_compact_null, readValue]
    rfl
  | bool b =>
    intro rest _ fuel _
    cases b
    · rw [toList_compact_false, readValue]
      rfl
    · rw [toList_compact_true, readValue]
      rfl
  | number l =>
    obtain ⟨n, rfl⟩ := hj
    exact readsBack_number n
  | text s => exact readsBack_text s
  | list xs ih =>
    have hxs := everyNumber_list.mp hj
    exact readsBack_list hxs fun x hx => ih x hx (hxs x hx)
  | object ms ih =>
    have hms := everyNumber_object.mp hj
    exact readsBack_object fun m hm => ih m hm (hms m hm)

/-- A value whose numbers are integers is read back from its line. -/
theorem parse_compact {j : Json} (hj : j.IsIntegral) : parse j.compact = some j := by
  have hread := readValue_compact hj [] nofun _ (Nat.le_refl _)
  rw [List.append_nil] at hread
  rw [parse, hread]
  rfl

end ScrapeDiscovery.Json

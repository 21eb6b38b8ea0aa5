import ScrapeDiscovery.Proofs.Text.Gaps

/-!
# Texts with named places

A template has places: names in braces behind a dollar sign, for which values are to be put
in. One pass from left to right puts all of them in and never looks at a value again. A program
that replaces one place after the other does look again, at the values of the places before.

Results:
* `replaceEach_text`: replacing one place is a pass.
* `fillPlaces_append`, `fillPlaces_append_of_not_mem`: where a text can be cut.
* `fillPlaces_or`: a pass for one place and a pass for others, against one pass for all.
* `fillPlaces_fillPlaces_iff`: the two passes make up one exactly if no value completes a place.
-/

namespace ScrapeDiscovery.Text

/-- Texts are told apart by what comes before the first `c` and by what follows it. -/
theorem append_cons_inj {α : Type} {c : α} {as bs xs ys : List α} (ha : c ∉ as) (hb : c ∉ bs) :
    as ++ c :: xs = bs ++ c :: ys ↔ as = bs ∧ xs = ys := by
  refine ⟨fun h => ?_, fun ⟨hbefore, hafter⟩ => by rw [hbefore, hafter]⟩
  induction as generalizing bs with
  | nil =>
    cases bs with
    | nil => exact ⟨rfl, (List.cons.inj h).2⟩
    | cons b bs => exact absurd ((List.cons.inj h).1 ▸ List.mem_cons_self) hb
  | cons a as ih =>
    rw [List.mem_cons, not_or] at ha
    cases bs with
    | nil => exact absurd (List.cons.inj h).1.symm ha.1
    | cons b bs =>
      obtain ⟨rfl, htail⟩ := List.cons.inj h
      obtain ⟨rfl, hafter⟩ := ih ha.2 (fun hmem => hb (List.mem_cons_of_mem _ hmem)) htail
      exact ⟨rfl, hafter⟩

/-- A place in a template: its name, made of letters, and the value to put in. -/
structure Place where
  name : List Char
  value : List Char
  isAlpha : (name.all Char.isAlpha) = true

namespace Place

/-- What stands behind the dollar sign of a place. -/
def body (p : Place) : List Char := '\x7b' :: (p.name ++ ['\x7d'])

/-- How a place is written. -/
def text (p : Place) : List Char := '$' :: p.body

variable {p q : Place}

theorem not_mem_name {c : Char} (hc : c.isAlpha = false) : c ∉ p.name := fun hmem =>
  Bool.false_ne_true (hc.symm.trans (List.all_eq_true.mp p.isAlpha c hmem))

/-- Behind its dollar sign a place has nothing but letters and braces. -/
theorem not_mem_body {c : Char} (hc : (c.isAlpha || c = '\x7b' || c = '\x7d') = false)
    (p : Place) : c ∉ p.body := by
  simp only [Bool.or_eq_false_iff, decide_eq_false_iff_not] at hc
  simp [body, hc.1.2, hc.2, not_mem_name hc.1.1]

theorem dollar_not_mem_body (p : Place) : '$' ∉ p.body := not_mem_body (by decide) p

/-- A place ends with its first closing brace. -/
theorem text_append_inj {xs ys : List Char} :
    p.text ++ xs = q.text ++ ys ↔ p.text = q.text ∧ xs = ys := by
  refine ⟨fun h => ?_, fun ⟨htext, hrest⟩ => by rw [htext, hrest]⟩
  have hp : '\x7d' ∉ p.name := not_mem_name (by decide)
  have hq : '\x7d' ∉ q.name := not_mem_name (by decide)
  simp only [text, body, List.cons_append, List.append_assoc, List.nil_append, List.cons.injEq,
    true_and] at h
  obtain ⟨hname, hrest⟩ := (append_cons_inj hp hq).mp h
  exact ⟨by rw [text, text, body, body, hname], hrest⟩

theorem text_prefix_iff {xs : List Char} : q.text <+: p.text ++ xs ↔ q.text = p.text := by
  refine ⟨fun ⟨ys, h⟩ => (text_append_inj.mp h).1, fun h => ?_⟩
  rw [h]
  exact List.prefix_append _ _

/-- A place does not reach a character that it does not have. -/
theorem prefix_of_append {a c : Char} {xs ys : List Char} (hc : c ∉ p.body)
    (h : p.text <+: a :: (xs ++ c :: ys)) : p.text <+: a :: xs := by
  have hwhole : a :: xs <+: a :: (xs ++ c :: ys) := List.prefix_append (a :: xs) _
  rcases List.prefix_or_prefix_of_prefix h hwhole with hpart | ⟨rest, hrest⟩
  · exact hpart
  · cases rest with
    | nil => exact ⟨[], by rw [List.append_nil, ← hrest, List.append_nil]⟩
    | cons r rest =>
      rw [← hrest] at h
      obtain ⟨rfl, -⟩ := List.cons_prefix_cons.mp ((List.prefix_append_right_inj (a :: xs)).mp h)
      refine absurd ?_ hc
      rw [← (List.cons.inj hrest).2]
      exact List.mem_append_right _ List.mem_cons_self

/-- A place does not begin inside another one. -/
theorem text_append_cases {xs ys zs : List Char} (h : p.text ++ xs = ys ++ (q.text ++ zs)) :
    (ys = [] ∧ p.text = q.text ∧ xs = zs) ∨
      ∃ rest, ys = p.text ++ rest ∧ xs = rest ++ (q.text ++ zs) := by
  rcases List.append_eq_append_iff.mp h with ⟨rest, hys, hxs⟩ | ⟨rest, htext, hrest⟩
  · exact Or.inr ⟨rest, hys, hxs⟩
  · cases ys with
    | nil =>
      obtain ⟨htext', hrest'⟩ := text_append_inj.mp h
      exact Or.inl ⟨rfl, htext', hrest'⟩
    | cons y ys =>
      cases rest with
      | nil => exact Or.inr ⟨[], by rw [htext, List.append_nil, List.append_nil], hrest.symm⟩
      | cons r rest =>
        -- the dollar sign of the other place would stand behind that of this one
        obtain rfl : '$' = r := (List.cons.inj hrest).1
        refine absurd ?_ p.dollar_not_mem_body
        rw [(List.cons.inj htext).2]
        exact List.mem_append_right _ List.mem_cons_self

end Place

/-! ## One pass -/

/-- Puts the values of places into a text, in one pass from left to right. -/
def fillPlaces (places : List Place) : List Char → List Char
  | [] => []
  | c :: cs =>
    match places.find? (·.text.isPrefixOf (c :: cs)) with
    | some p => p.value ++ fillPlaces places (cs.drop p.body.length)
    | none => c :: fillPlaces places cs
termination_by cs => cs.length
decreasing_by
  · simp only [List.length_drop, List.length_cons]
    omega
  · exact Nat.lt_succ_self _

section Pass

variable {places : List Place} {p : Place} {xs ys : List Char}

@[simp] theorem fillPlaces_nil (places : List Place) : fillPlaces places [] = [] := by
  rw [fillPlaces]

theorem find?_text (places : List Place) (p : Place) (xs : List Char) :
    places.find? (·.text.isPrefixOf (p.text ++ xs)) = places.find? (·.text == p.text) := by
  refine congrArg (fun f => places.find? f) (funext fun q => ?_)
  rw [Bool.eq_iff_iff, List.isPrefixOf_iff_prefix, Place.text_prefix_iff, beq_iff_eq]

/-- A place is filled with the value of the first place of its name. -/
theorem fillPlaces_text (h : places.find? (·.text == p.text) = some p) (xs : List Char) :
    fillPlaces places (p.text ++ xs) = p.value ++ fillPlaces places xs := by
  have hfind := (find?_text places p xs).trans h
  rw [Place.text, List.cons_append] at hfind ⊢
  rw [fillPlaces, hfind]
  exact congrArg (p.value ++ fillPlaces places ·) (List.drop_left ..)

theorem fillPlaces_cons {c : Char} (h : ∀ p ∈ places, ¬p.text <+: c :: xs) :
    fillPlaces places (c :: xs) = c :: fillPlaces places xs := by
  have hfind : places.find? (·.text.isPrefixOf (c :: xs)) = none :=
    List.find?_eq_none.mpr fun p hp hbegin => h p hp (List.isPrefixOf_iff_prefix.mp hbegin)
  rw [fillPlaces, hfind]

/-- A text is empty, begins with a place, or begins with a character that no place begins with. -/
theorem fillPlaces_induction (places : List Place) {motive : List Char → Prop} (nil : motive [])
    (text : ∀ p xs, places.find? (·.text == p.text) = some p → motive xs → motive (p.text ++ xs))
    (cons : ∀ c xs, (∀ p ∈ places, ¬p.text <+: c :: xs) → motive xs → motive (c :: xs))
    (xs : List Char) : motive xs := by
  fun_induction fillPlaces places xs with
  | case1 => exact nil
  | case2 c cs p hfind ih =>
    have hbegin : p.text.isPrefixOf (c :: cs) = true := by simpa using List.find?_some hfind
    obtain ⟨rest, hrest⟩ := List.isPrefixOf_iff_prefix.mp hbegin
    have htail : cs = p.body ++ rest := (List.cons.inj hrest).2.symm
    rw [htail, List.drop_left] at ih
    rw [← hrest] at hfind ⊢
    exact text p rest ((find?_text places p rest).symm.trans hfind) ih
  | case3 c cs hfind ih =>
    refine cons c cs (fun p hp hbegin => ?_) ih
    exact List.find?_eq_none.mp hfind p hp (List.isPrefixOf_iff_prefix.mpr hbegin)

/-- What has no place in it stays. -/
theorem fillPlaces_of_not_infix (h : ∀ p ∈ places, ¬p.text <:+: xs) :
    fillPlaces places xs = xs := by
  induction xs with
  | nil => exact fillPlaces_nil places
  | cons c xs ih =>
    rw [fillPlaces_cons fun p hp hbegin => h p hp hbegin.isInfix,
      ih fun p hp hoccurs => h p hp (hoccurs.trans (List.suffix_cons _ _).isInfix)]

theorem fillPlaces_no_places (xs : List Char) : fillPlaces [] xs = xs :=
  fillPlaces_of_not_infix nofun

/-- What comes before the first dollar sign stays. -/
theorem fillPlaces_append_of_not_mem (h : '$' ∉ xs) (ys : List Char) :
    fillPlaces places (xs ++ ys) = xs ++ fillPlaces places ys := by
  induction xs with
  | nil => rfl
  | cons c xs ih =>
    rw [List.mem_cons, not_or] at h
    rw [List.cons_append, fillPlaces_cons fun p _ hbegin => h.1 (List.cons_prefix_cons.mp hbegin).1,
      ih h.2, List.cons_append]

/-- A text can be cut before a character that no place has behind its dollar sign. -/
theorem fillPlaces_append {c : Char} (hc : ∀ p ∈ places, c ∉ p.body) (xs ys : List Char) :
    fillPlaces places (xs ++ c :: ys) = fillPlaces places xs ++ fillPlaces places (c :: ys) := by
  induction xs using fillPlaces_induction places with
  | nil => rw [fillPlaces_nil, List.nil_append, List.nil_append]
  | text p xs hfind ih =>
    rw [List.append_assoc, fillPlaces_text hfind, ih, fillPlaces_text hfind, List.append_assoc]
  | cons a xs hno ih =>
    have hno' : ∀ p ∈ places, ¬p.text <+: a :: (xs ++ c :: ys) := fun p hp hbegin =>
      hno p hp (Place.prefix_of_append (hc p hp) hbegin)
    rw [List.cons_append, fillPlaces_cons hno', ih, fillPlaces_cons hno, List.cons_append]

/-- A place that does not occur may be left out. -/
theorem fillPlaces_cons_places (h : ¬p.text <:+: xs) :
    fillPlaces (p :: places) xs = fillPlaces places xs := by
  induction xs using fillPlaces_induction places with
  | nil => rw [fillPlaces_nil, fillPlaces_nil]
  | text q xs hfind ih =>
    have hne : (p.text == q.text) = false := by
      rw [beq_eq_false_iff_ne]
      intro heq
      exact h (heq ▸ (List.prefix_append _ _).isInfix)
    have hfind' : (p :: places).find? (·.text == q.text) = some q := by
      rw [List.find?_cons, hne, hfind]
    rw [fillPlaces_text hfind', fillPlaces_text hfind,
      ih fun hoccurs => h (hoccurs.trans (List.suffix_append _ _).isInfix)]
  | cons c xs hno ih =>
    have hno' : ∀ q ∈ p :: places, ¬q.text <+: c :: xs := by
      intro q hq hbegin
      rcases List.mem_cons.mp hq with rfl | hq
      · exact h hbegin.isInfix
      · exact hno q hq hbegin
    rw [fillPlaces_cons hno', fillPlaces_cons hno,
      ih fun hoccurs => h (hoccurs.trans (List.suffix_cons _ _).isInfix)]

/-- Replacing a single place is a pass for this place. -/
theorem replaceEach_text (p : Place) (xs : List Char) :
    replaceEach p.text p.value xs = fillPlaces [p] xs := by
  induction xs using fillPlaces_induction [p] with
  | nil => rw [replaceEach_nil, fillPlaces_nil]
  | text q xs hfind ih =>
    obtain rfl := List.mem_singleton.mp (List.mem_of_find?_eq_some hfind)
    have hne : q.text ≠ [] := List.cons_ne_nil _ _
    rw [replaceEach_append hne, ih, fillPlaces_text hfind]
  | cons c xs hno ih =>
    rw [replaceEach_cons (hno p List.mem_cons_self), ih, fillPlaces_cons hno]

/-! ## Counting places -/

/-- Where no value has a dollar sign, there are as many less of them as places are filled. -/
theorem count_fillPlaces_le (hvalues : ∀ p ∈ places, '$' ∉ p.value) (xs : List Char) :
    (fillPlaces places xs).count '$' ≤ xs.count '$' := by
  induction xs using fillPlaces_induction places with
  | nil => rw [fillPlaces_nil]
  | text p xs hfind ih =>
    have hvalue := List.count_eq_zero.mpr (hvalues p (List.mem_of_find?_eq_some hfind))
    rw [fillPlaces_text hfind, List.count_append, List.count_append, hvalue]
    omega
  | cons c xs hno ih =>
    rw [fillPlaces_cons hno, List.count_cons, List.count_cons]
    omega

theorem count_fillPlaces_lt (hvalues : ∀ p ∈ places, '$' ∉ p.value) (hp : p ∈ places)
    (h : p.text <:+: xs) : (fillPlaces places xs).count '$' < xs.count '$' := by
  induction xs using fillPlaces_induction places with
  | nil => exact absurd (List.infix_nil.mp h) (List.cons_ne_nil _ _)
  | text q xs hfind ih =>
    have hvalue := List.count_eq_zero.mpr (hvalues q (List.mem_of_find?_eq_some hfind))
    have hrest := count_fillPlaces_le hvalues xs
    rw [fillPlaces_text hfind, List.count_append, List.count_append, hvalue, Place.text,
      List.count_cons_self]
    omega
  | cons c xs hno ih =>
    have hlt := ih ((List.infix_cons_iff.mp h).resolve_left (hno p hp))
    rw [fillPlaces_cons hno, List.count_cons, List.count_cons]
    omega

/-! ## Places that a value completes -/

/-- Whether a place ends in `value` when that comes behind `before`. The place may begin in either
    of them. -/
def Place.EndsIn (p : Place) (before value : List Char) : Prop :=
  ∃ front back, before ++ value = front ++ (p.text ++ back) ∧ back.length < value.length

variable {value : List Char}

theorem Place.endsIn_nil : p.EndsIn [] value ↔ p.text <:+: value := by
  constructor
  · rintro ⟨front, back, h, -⟩
    exact ⟨front, back, by rw [List.append_assoc, ← h, List.nil_append]⟩
  · rintro ⟨front, back, h⟩
    refine ⟨front, back, by rw [← List.append_assoc, h, List.nil_append], ?_⟩
    rw [← h, Place.text]
    simp only [List.length_append, List.length_cons]
    omega

/-- A place that ends in the value does not begin before another place or in it. -/
theorem Place.endsIn_text {q : Place} : p.EndsIn (q.text ++ xs) value ↔ p.EndsIn xs value := by
  constructor
  · rintro ⟨front, back, h, hback⟩
    rw [List.append_assoc] at h
    rcases Place.text_append_cases h with ⟨-, -, hrest⟩ | ⟨rest, -, hrest⟩
    · rw [← hrest, List.length_append] at hback
      omega
    · exact ⟨rest, back, hrest, hback⟩
  · rintro ⟨front, back, h, hback⟩
    exact ⟨q.text ++ front, back, by rw [List.append_assoc, h, List.append_assoc], hback⟩

theorem Place.endsIn_append_text {q : Place} :
    p.EndsIn (ys ++ (q.text ++ xs)) value ↔ p.EndsIn xs value := by
  constructor
  · rintro ⟨front, back, h, hback⟩
    rw [List.append_assoc] at h
    rcases List.append_eq_append_iff.mp h with ⟨rest, -, hrest⟩ | ⟨rest, -, hrest⟩
    · exact Place.endsIn_text.mp ⟨rest, back, hrest, hback⟩
    · -- a place that begins before the other one ends before it
      have hlong : (xs ++ value).length ≤ back.length := by
        rw [List.append_assoc] at hrest
        rcases Place.text_append_cases hrest with ⟨-, -, rfl⟩ | ⟨rest', -, rfl⟩
        · exact Nat.le_refl _
        · simp only [List.length_append]
          omega
      rw [List.length_append] at hlong
      omega
  · rintro ⟨front, back, h, hback⟩
    refine ⟨ys ++ (q.text ++ front), back, ?_, hback⟩
    simp only [List.append_assoc, h]

theorem Place.endsIn_cons {c : Char} (h : ¬p.text <+: c :: (xs ++ value)) :
    p.EndsIn (c :: xs) value ↔ p.EndsIn xs value := by
  constructor
  · rintro ⟨front, back, heq, hback⟩
    cases front with
    | nil => exact absurd ⟨back, heq.symm⟩ h
    | cons f front => exact ⟨front, back, (List.cons.inj heq).2, hback⟩
  · rintro ⟨front, back, heq, hback⟩
    exact ⟨c :: front, back, congrArg (c :: ·) heq, hback⟩

/-- A place with which a text and a value begin ends in the value, unless the text has it. -/
theorem Place.endsIn_of_prefix (h : p.text <+: xs ++ value) (hno : ¬p.text <+: xs) :
    p.EndsIn xs value := by
  obtain ⟨back, hback⟩ := h
  refine ⟨[], back, hback.symm, ?_⟩
  have hshort : xs.length < p.text.length := by
    by_contra hle
    exact hno (List.prefix_of_prefix_length_le ⟨back, hback⟩ (List.prefix_append _ _)
      (Nat.le_of_not_lt hle))
  have hlength := congrArg List.length hback
  rw [List.length_append, List.length_append] at hlength
  omega

/-- A value in which no place ends may come in before the pass or after it. -/
theorem fillPlaces_append_value (h : ∀ p ∈ places, ¬p.EndsIn xs value) :
    fillPlaces places (xs ++ value) = fillPlaces places xs ++ value := by
  induction xs using fillPlaces_induction places with
  | nil =>
    rw [List.nil_append, fillPlaces_nil, List.nil_append]
    exact fillPlaces_of_not_infix fun p hp hoccurs => h p hp (Place.endsIn_nil.mpr hoccurs)
  | text p xs hfind ih =>
    rw [List.append_assoc, fillPlaces_text hfind, fillPlaces_text hfind,
      ih fun q hq hends => h q hq (Place.endsIn_text.mpr hends), List.append_assoc]
  | cons c xs hno ih =>
    have hno' : ∀ p ∈ places, ¬p.text <+: c :: (xs ++ value) := fun p hp hbegin =>
      h p hp (Place.endsIn_of_prefix hbegin (hno p hp))
    rw [List.cons_append, fillPlaces_cons hno', fillPlaces_cons hno,
      ih fun p hp hends => h p hp ((Place.endsIn_cons (hno' p hp)).mpr hends), List.cons_append]

/-- A value in which a place ends may not: a dollar sign gets lost that is otherwise kept. -/
theorem count_fillPlaces_append_value (hvalues : ∀ p ∈ places, '$' ∉ p.value) (hp : p ∈ places)
    (h : p.EndsIn xs value) :
    (fillPlaces places (xs ++ value)).count '$' <
      (fillPlaces places xs ++ value).count '$' := by
  induction xs using fillPlaces_induction places with
  | nil =>
    rw [List.nil_append, fillPlaces_nil, List.nil_append]
    exact count_fillPlaces_lt hvalues hp (Place.endsIn_nil.mp h)
  | text q xs hfind ih =>
    have hlt := ih (Place.endsIn_text.mp h)
    rw [List.append_assoc, fillPlaces_text hfind, fillPlaces_text hfind, List.append_assoc,
      List.count_append, List.count_append]
    omega
  | cons c xs hno ih =>
    by_cases hsome : ∃ q ∈ places, q.text <+: c :: (xs ++ value)
    · -- the place begins with the first character, which nothing else is filled behind
      obtain ⟨q, hq, hbegin⟩ := hsome
      have hlt := count_fillPlaces_lt hvalues hq hbegin.isInfix
      have hxs : '$' ∉ xs := by
        have hwhole : c :: xs <+: c :: (xs ++ value) := List.prefix_append (c :: xs) value
        have hpart := (List.prefix_or_prefix_of_prefix hbegin hwhole).resolve_left (hno q hq)
        exact fun hmem => q.dollar_not_mem_body ((List.cons_prefix_cons.mp hpart).2.subset hmem)
      have hsame : fillPlaces places xs = xs := by
        have hfill : fillPlaces places (xs ++ []) = _ := fillPlaces_append_of_not_mem hxs []
        rwa [List.append_nil, fillPlaces_nil, List.append_nil] at hfill
      rw [fillPlaces_cons hno, hsame]
      exact hlt
    · have hno' : ∀ q ∈ places, ¬q.text <+: c :: (xs ++ value) := fun q hq hbegin =>
        hsome ⟨q, hq, hbegin⟩
      have hlt := ih ((Place.endsIn_cons (hno' p hp)).mp h)
      rw [List.cons_append, fillPlaces_cons hno', fillPlaces_cons hno, List.cons_append,
        List.count_cons, List.count_cons]
      omega

/-! ## Two passes and one -/

theorem Place.exists_first (h : p.text <:+: xs) :
    ∃ before after, xs = before ++ (p.text ++ after) ∧ ¬p.text <:+: before := by
  induction xs with
  | nil => exact absurd (List.infix_nil.mp h) (List.cons_ne_nil _ _)
  | cons c xs ih =>
    by_cases hbegin : p.text <+: c :: xs
    · obtain ⟨after, hafter⟩ := hbegin
      exact ⟨[], after, hafter.symm,
        fun hoccurs => List.cons_ne_nil _ _ (List.infix_nil.mp hoccurs)⟩
    · obtain ⟨before, after, rfl, hbefore⟩ := ih ((List.infix_cons_iff.mp h).resolve_left hbegin)
      refine ⟨c :: before, after, rfl, fun hoccurs => ?_⟩
      rcases List.infix_cons_iff.mp hoccurs with hhead | htail
      · exact hbegin (hhead.trans (List.prefix_append (c :: before) _))
      · exact hbefore htail

/-- A text has no place of this name, or is cut at the first one. -/
theorem Place.split_induction (p : Place) {motive : List Char → Prop}
    (plain : ∀ xs, ¬p.text <:+: xs → motive xs)
    (split : ∀ before after, ¬p.text <:+: before → motive after →
      motive (before ++ (p.text ++ after)))
    (xs : List Char) : motive xs := by
  by_cases h : p.text <:+: xs
  · obtain ⟨before, after, hxs, hbefore⟩ := exists_first h
    rw [hxs]
    exact split before after hbefore (split_induction p plain split after)
  · exact plain xs h
termination_by xs.length
decreasing_by
  rw [hxs, Place.text]
  simp only [List.length_append, List.length_cons]
  omega

/-- Whether a value that is put in for `p` makes one of the places end in it. -/
def Place.Completes (p : Place) (places : List Place) (value xs : List Char) : Prop :=
  ∃ before after, xs = before ++ (p.text ++ after) ∧ ∃ q ∈ places, q.EndsIn before value

theorem Place.not_completes (h : ¬p.text <:+: xs) : ¬p.Completes places value xs := by
  rintro ⟨before, after, rfl, -⟩
  exact h ⟨before, after, List.append_assoc ..⟩

theorem Place.completes_split {before after : List Char} (hbefore : ¬p.text <:+: before) :
    p.Completes places value (before ++ (p.text ++ after)) ↔
      (∃ q ∈ places, q.EndsIn before value) ∨ p.Completes places value after := by
  constructor
  · rintro ⟨front, back, h, q, hq, hends⟩
    rcases List.append_eq_append_iff.mp h with ⟨rest, rfl, hrest⟩ | ⟨rest, rfl, hrest⟩
    · rcases text_append_cases hrest with ⟨rfl, -, -⟩ | ⟨rest', rfl, rfl⟩
      · rw [List.append_nil] at hends
        exact Or.inl ⟨q, hq, hends⟩
      · exact Or.inr ⟨rest', back, rfl, q, hq, endsIn_append_text.mp hends⟩
    · rcases text_append_cases hrest with ⟨rfl, -, -⟩ | ⟨rest', rfl, -⟩
      · rw [List.append_nil]
        exact Or.inl ⟨q, hq, hends⟩
      · exact absurd ⟨front, rest', List.append_assoc ..⟩ hbefore
  · rintro (⟨q, hq, hends⟩ | ⟨front, back, rfl, q, hq, hends⟩)
    · exact ⟨before, after, rfl, q, hq, hends⟩
    · refine ⟨before ++ (p.text ++ front), back, ?_, q, hq, endsIn_append_text.mpr hends⟩
      simp only [List.append_assoc]

section Twice

variable {c : Char} {rest : List Char}

/-- One place filled in, up to the first of its kind. -/
theorem fillPlaces_split {before after : List Char} (hbefore : ¬p.text <:+: before) :
    fillPlaces (p :: places) (before ++ (p.text ++ after)) =
      fillPlaces places before ++ (p.value ++ fillPlaces (p :: places) after) := by
  have hfind : (p :: places).find? (·.text == p.text) = some p := by
    rw [List.find?_cons, beq_self_eq_true]
  rw [Place.text, List.cons_append, fillPlaces_append fun q _ => q.dollar_not_mem_body,
    fillPlaces_cons_places hbefore, ← List.cons_append]
  exact congrArg (fillPlaces places before ++ ·) (fillPlaces_text hfind after)

/-- Let the value of `p` be cut behind its last dollar sign, at a character that no other place has
    in it. Then filling `p` first and the other places afterwards is filling all of them at once, or
    the value up to the cut completes one of the others, and a dollar sign gets lost that is
    otherwise kept. -/
theorem fillPlaces_or (hvalue : p.value = value ++ c :: rest) (hrest : '$' ∉ c :: rest)
    (hc : ∀ q ∈ places, c ∉ q.body) (hvalues : ∀ q ∈ places, '$' ∉ q.value) (xs : List Char) :
    (¬p.Completes places value xs ∧
        fillPlaces places (fillPlaces [p] xs) = fillPlaces (p :: places) xs) ∨
      (p.Completes places value xs ∧
        (fillPlaces places (fillPlaces [p] xs)).count '$' <
          (fillPlaces (p :: places) xs).count '$') := by
  induction xs using Place.split_induction p with
  | plain xs h =>
    have hplain : fillPlaces [p] xs = xs :=
      (fillPlaces_cons_places h).trans (fillPlaces_no_places xs)
    exact Or.inl ⟨Place.not_completes h, by rw [hplain, fillPlaces_cons_places h]⟩
  | split before after hbefore ih =>
    have hfirst : fillPlaces [p] (before ++ (p.text ++ after)) =
        before ++ value ++ c :: (rest ++ fillPlaces [p] after) := by
      rw [fillPlaces_split hbefore, fillPlaces_no_places, hvalue]
      simp only [List.append_assoc, List.cons_append]
    have htwice : fillPlaces places (fillPlaces [p] (before ++ (p.text ++ after))) =
        fillPlaces places (before ++ value) ++
          (c :: rest ++ fillPlaces places (fillPlaces [p] after)) := by
      rw [hfirst, fillPlaces_append hc, ← List.cons_append, fillPlaces_append_of_not_mem hrest]
    have honce : fillPlaces (p :: places) (before ++ (p.text ++ after)) =
        fillPlaces places before ++ value ++ (c :: rest ++ fillPlaces (p :: places) after) := by
      rw [fillPlaces_split hbefore, hvalue]
      simp only [List.append_assoc]
    rw [htwice, honce, Place.completes_split hbefore]
    by_cases hends : ∃ q ∈ places, q.EndsIn before value
    · obtain ⟨q, hq, hqends⟩ := hends
      have hlt := count_fillPlaces_append_value hvalues hq hqends
      have hle : (fillPlaces places (fillPlaces [p] after)).count '$' ≤
          (fillPlaces (p :: places) after).count '$' := by
        rcases ih with ⟨-, heq⟩ | ⟨-, hlt⟩
        · rw [heq]
        · exact hlt.le
      refine Or.inr ⟨Or.inl ⟨q, hq, hqends⟩, ?_⟩
      simp only [List.count_append] at hlt ⊢
      omega
    · have hsame := fillPlaces_append_value fun q hq hqends => hends ⟨q, hq, hqends⟩
      rw [hsame]
      rcases ih with ⟨hnot, heq⟩ | ⟨hcompletes, hlt⟩
      · exact Or.inl ⟨not_or.mpr ⟨hends, hnot⟩, by rw [heq]⟩
      · refine Or.inr ⟨Or.inr hcompletes, ?_⟩
        simp only [List.count_append]
        omega

/-- Filling one place and then the others is filling all of them at once exactly if no place ends in
    the value of the first. -/
theorem fillPlaces_fillPlaces_iff (hvalue : p.value = value ++ c :: rest)
    (hrest : '$' ∉ c :: rest) (hc : ∀ q ∈ places, c ∉ q.body)
    (hvalues : ∀ q ∈ places, '$' ∉ q.value) (xs : List Char) :
    fillPlaces places (fillPlaces [p] xs) = fillPlaces (p :: places) xs ↔
      ¬p.Completes places value xs := by
  rcases fillPlaces_or hvalue hrest hc hvalues xs with ⟨hnot, heq⟩ | ⟨hcompletes, hlt⟩
  · exact iff_of_true heq hnot
  · exact iff_of_false (fun heq => absurd hlt (heq ▸ Nat.lt_irrefl _)) (not_not_intro hcompletes)

end Twice

end Pass

end ScrapeDiscovery.Text

import Mathlib.Data.List.TakeWhile
import ScrapeDiscovery.Proofs.Client.Hosts

/-!
# The generic syntax of identifiers

An identifier of the web has a scheme, an authority, which is a host with or without a user
and a port, a path, and perhaps a query and a fragment:

    scheme://user@host:port/path?query#fragment

Every part has characters of its own, and others are written in hexadecimal after a percent
sign. A host is an IP address of version 4, an IP address of a later version between brackets,
or a name. Only what stands between brackets may hold colons, since a colon outside of them
begins the port.

Results:
* `not_mem_of_isEncoded`: a part does without the characters that end it.
* `WellFormed.isServerChar_of_mem_server`, `WellFormed.isServerChar_of_mem_authority`: what hosts,
  ports and authorities are made of.
-/

namespace ScrapeDiscovery

open Client.Host (isDottedQuad isVersion6)

namespace Uri

/-! ## Characters -/

/-- Whether a character is part of a name, whatever part of an identifier it stands in. -/
def isUnreserved (c : Char) : Bool := c.isAlphanum || c = '-' || c = '.' || c = '_' || c = '~'

/-- Whether a character may separate what a part is made of. -/
def isDelimiter (c : Char) : Bool :=
  c = '!' || c = '$' || c = '&' || c = '\x27' || c = '(' || c = ')' || c = '*' || c = '+' ||
    c = ',' || c = ';' || c = '='

/-- Whether a character may stand for itself in a part that admits some others. -/
def isPlain (others : List Char) (c : Char) : Bool :=
  isUnreserved c || isDelimiter c || others.contains c

/-- Whether `c` is a hexadecimal digit. -/
def isHexDigit (c : Char) : Bool := (Text.digitValue 16 c).isSome

/-- Whether a text has only plain characters, and others in hexadecimal. -/
def isEncoded (others : List Char) : List Char → Bool
  | [] => true
  | '%' :: a :: b :: cs => isHexDigit a && isHexDigit b && isEncoded others cs
  | c :: cs => isPlain others c && isEncoded others cs

theorem isPlain_mono {others others' : List Char} (h : others ⊆ others') {c : Char}
    (hc : isPlain others c = true) : isPlain others' c = true := by
  rw [isPlain, Bool.or_eq_true, List.contains_iff_mem] at hc ⊢
  exact hc.imp_right (h ·)

theorem isPlain_of_isAlphanum {c : Char} (h : c.isAlphanum = true) (others : List Char) :
    isPlain others c = true := by
  rw [isPlain, isUnreserved, h]
  rfl

theorem isPlain_of_isHexDigit {c : Char} (h : isHexDigit c = true) (others : List Char) :
    isPlain others c = true :=
  isPlain_of_isAlphanum (Text.isAlphanum_of_digitValue h) others

theorem isPlain_of_isEncoded {others cs : List Char} (h : isEncoded others cs = true) :
    ∀ c ∈ cs, c = '%' ∨ isPlain others c = true := by
  fun_induction isEncoded others cs with
  | case1 => exact fun c hc => absurd hc List.not_mem_nil
  | case2 a b cs ih =>
    simp only [Bool.and_eq_true] at h
    simp only [List.forall_mem_cons, true_or, true_and]
    exact ⟨Or.inr (isPlain_of_isHexDigit h.1.1 _),
      Or.inr (isPlain_of_isHexDigit h.1.2 _), ih h.2⟩
  | case3 c cs _ ih =>
    rw [Bool.and_eq_true] at h
    exact List.forall_mem_cons.mpr ⟨Or.inr h.1, ih h.2⟩

/-- A part does without every character that is not plain in it. -/
theorem not_mem_of_isEncoded {others cs : List Char} (h : isEncoded others cs = true) {c : Char}
    (hpercent : c ≠ '%') (hc : isPlain others c = false) : c ∉ cs := by
  intro hmem
  rcases isPlain_of_isEncoded h c hmem with he | he
  · exact hpercent he
  · exact absurd (hc.symm.trans he) Bool.false_ne_true

/-! ## Parts -/

/-- Whether a text is a scheme. -/
def isScheme : List Char → Bool
  | [] => false
  | c :: cs => c.isAlpha && cs.all fun c => c.isAlphanum || c = '+' || c = '-' || c = '.'

/-- Whether a text is an address of a version that is still to come. -/
def isVersionFuture : List Char → Bool
  | v :: cs =>
    (v = 'v' || v = 'V') && !(cs.takeWhile isHexDigit).isEmpty &&
      match cs.dropWhile isHexDigit with
      | '.' :: rest => !rest.isEmpty && rest.all (isPlain [':'])
      | _ => false
  | [] => false

/-- A host. -/
inductive Host where
  /-- An IP address of version 4. -/
  | version4 (text : List Char)
  /-- An IP address of another version, which is written between brackets. -/
  | literal (text : List Char)
  /-- A name, which may be empty. -/
  | name (text : List Char)
  deriving DecidableEq, Repr

namespace Host

/-- A host as it is written. -/
def text : Host → List Char
  | .version4 cs => cs
  | .literal cs => '[' :: (cs ++ [']'])
  | .name cs => cs

/-- Whether a host is what it says. What can be read as an address of version 4 is no name. -/
def isWellFormed : Host → Bool
  | .version4 cs => isDottedQuad cs
  | .literal cs => isVersion6 cs || isVersionFuture cs
  | .name cs => isEncoded [] cs && !isDottedQuad cs

end Host

/-- Whether a text is a path below an authority: nothing, or segments each after a slash. -/
def isPath (cs : List Char) : Bool :=
  (cs.isEmpty || cs.head? = some '/') && isEncoded [':', '@', '/'] cs

/-- Whether a text is a query or a fragment. -/
def isQuery (cs : List Char) : Bool := isEncoded [':', '@', '/', '?'] cs

end Uri

/-- The parts of an identifier. -/
structure Uri where
  scheme : List Char
  user : Option (List Char) := none
  host : Uri.Host
  port : Option (List Char) := none
  path : List Char
  query : Option (List Char) := none
  fragment : Option (List Char) := none
  deriving DecidableEq, Repr

namespace Uri

/-- Whether each part is one. -/
structure WellFormed (u : Uri) : Prop where
  scheme : isScheme u.scheme = true
  user : ∀ cs ∈ u.user, isEncoded [':'] cs = true
  host : u.host.isWellFormed = true
  port : ∀ cs ∈ u.port, cs.all Char.isDigit = true
  path : isPath u.path = true
  query : ∀ cs ∈ u.query, isQuery cs = true
  fragment : ∀ cs ∈ u.fragment, isQuery cs = true

instance (u : Uri) : Decidable u.WellFormed :=
  decidable_of_iff
    (isScheme u.scheme = true ∧ (∀ cs ∈ u.user, isEncoded [':'] cs = true) ∧
      u.host.isWellFormed = true ∧ (∀ cs ∈ u.port, cs.all Char.isDigit = true) ∧
      isPath u.path = true ∧ (∀ cs ∈ u.query, isQuery cs = true) ∧
      ∀ cs ∈ u.fragment, isQuery cs = true)
    ⟨fun ⟨h₁, h₂, h₃, h₄, h₅, h₆, h₇⟩ => ⟨h₁, h₂, h₃, h₄, h₅, h₆, h₇⟩,
      fun ⟨h₁, h₂, h₃, h₄, h₅, h₆, h₇⟩ => ⟨h₁, h₂, h₃, h₄, h₅, h₆, h₇⟩⟩

/-! ## Writing -/

/-- A part that may be missing, after the character that begins it. -/
def after (c : Char) : Option (List Char) → List Char
  | none => []
  | some cs => c :: cs

/-- A part that may be missing, before the character that ends it. -/
def before (c : Char) : Option (List Char) → List Char
  | none => []
  | some cs => cs ++ [c]

/-- A host and the port at it. -/
def server (u : Uri) : List Char := u.host.text ++ after ':' u.port

/-- What stands between the two slashes and the path. -/
def authority (u : Uri) : List Char := before '@' u.user ++ u.server

/-- An identifier as it is written. -/
def text (u : Uri) : List Char :=
  u.scheme ++ ':' :: '/' :: '/' ::
    (u.authority ++ u.path ++ after '?' u.query ++ after '#' u.fragment)

/-! ## What no part holds -/

theorem not_mem_scheme {cs : List Char} (h : isScheme cs = true) : ':' ∉ cs := by
  cases cs with
  | nil => exact List.not_mem_nil
  | cons c cs =>
    rw [isScheme, Bool.and_eq_true, List.all_eq_true] at h
    intro hmem
    rcases List.mem_cons.mp hmem with rfl | hmem
    · exact absurd h.1 (by decide)
    · exact absurd (h.2 ':' hmem) (by decide)

theorem isPlain_of_isVersionFuture {cs : List Char} (h : isVersionFuture cs = true) :
    ∀ c ∈ cs, isPlain [':'] c = true := by
  cases cs with
  | nil => cases h
  | cons v cs =>
    simp only [isVersionFuture, Bool.and_eq_true] at h
    obtain ⟨⟨hv, -⟩, hrest⟩ := h
    rw [List.forall_mem_cons]
    constructor
    · rcases Bool.or_eq_true_iff.mp hv with hv | hv <;>
        exact (of_decide_eq_true hv) ▸ (by decide)
    · rw [← List.takeWhile_append_dropWhile (p := isHexDigit) (l := cs)]
      intro c hc
      rcases List.mem_append.mp hc with hc | hc
      · exact isPlain_of_isHexDigit (List.mem_takeWhile_imp hc) _
      · split at hrest
        · next rest heq =>
          rw [heq] at hc
          rcases List.mem_cons.mp hc with rfl | hc
          · decide
          · exact List.all_eq_true.mp (Bool.and_eq_true_iff.mp hrest).2 c hc
        · cases hrest

theorem isPlain_of_isVersion6 {cs : List Char} (h : isVersion6 cs = true) :
    ∀ c ∈ cs, isPlain [':'] c = true := by
  intro c hc
  rcases Client.Host.isHexDigit_or_of_isVersion6 h c hc with h | rfl | rfl
  · exact isPlain_of_isHexDigit h _
  · decide
  · decide

theorem isPlain_of_isDottedQuad {cs : List Char} (h : isDottedQuad cs = true) :
    ∀ c ∈ cs, isPlain [] c = true := by
  intro c hc
  rcases Client.Host.isDigit_or_dot_of_isDottedQuad h c hc with h | rfl
  · exact isPlain_of_isHexDigit (Text.isSome_digitValue_of_isDigit h) _
  · decide

/-- What may stand in a host with a port, where the brackets are. -/
def isServerChar (c : Char) : Bool := c = '%' || c = '[' || c = ']' || isPlain [':'] c

theorem isServerChar_of_isPlain {c : Char} (h : isPlain [':'] c = true) :
    isServerChar c = true := by
  rw [isServerChar, h, Bool.or_true]

/-- What holds of the characters of a host holds of it with its brackets, too. -/
theorem Host.isServerChar_of_mem_text {host : Host} (h : host.isWellFormed = true) :
    ∀ c ∈ host.text, isServerChar c = true := by
  cases host with
  | version4 cs =>
    exact fun c hc => isServerChar_of_isPlain
      (isPlain_mono (List.nil_subset _) (isPlain_of_isDottedQuad h c hc))
  | literal cs =>
    have hplain : ∀ c ∈ cs, isPlain [':'] c = true := by
      rcases Bool.or_eq_true_iff.mp h with h | h
      · exact isPlain_of_isVersion6 h
      · exact isPlain_of_isVersionFuture h
    intro c hc
    rcases List.mem_cons.mp hc with rfl | hc
    · decide
    rcases List.mem_append.mp hc with hc | hc
    · exact isServerChar_of_isPlain (hplain c hc)
    · rw [List.mem_singleton.mp hc]
      decide
  | name cs =>
    intro c hc
    rcases isPlain_of_isEncoded (Bool.and_eq_true_iff.mp h).1 c hc with rfl | hplain
    · decide
    · exact isServerChar_of_isPlain (isPlain_mono (List.nil_subset _) hplain)

namespace WellFormed

variable {u : Uri}

theorem isServerChar_of_mem_server (h : u.WellFormed) : ∀ c ∈ u.server, isServerChar c = true := by
  intro c hc
  rcases List.mem_append.mp hc with hc | hc
  · exact Host.isServerChar_of_mem_text h.host c hc
  · cases hport : u.port with
    | none =>
      rw [hport] at hc
      exact absurd hc List.not_mem_nil
    | some port =>
      rw [hport] at hc
      rcases List.mem_cons.mp hc with rfl | hc
      · decide
      · have hdigit := List.all_eq_true.mp (h.port port hport) c hc
        refine isServerChar_of_isPlain (isPlain_of_isAlphanum ?_ _)
        rw [Char.isAlphanum, hdigit, Bool.or_true]

/-- Neither a slash nor anything else that ends an authority is in one. -/
theorem isServerChar_of_mem_authority (h : u.WellFormed) :
    ∀ c ∈ u.authority, (c = '@' || isServerChar c) = true := by
  intro c hc
  rcases List.mem_append.mp hc with hc | hc
  · cases huser : u.user with
    | none =>
      rw [huser] at hc
      exact absurd hc List.not_mem_nil
    | some user =>
      rw [huser] at hc
      rcases List.mem_append.mp hc with hc | hc
      · rcases isPlain_of_isEncoded (h.user user huser) c hc with rfl | hplain
        · decide
        · rw [isServerChar_of_isPlain hplain, Bool.or_true]
      · rw [List.mem_singleton.mp hc]
        decide
  · rw [h.isServerChar_of_mem_server c hc, Bool.or_true]

end WellFormed

end Uri

end ScrapeDiscovery

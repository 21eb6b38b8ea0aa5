import ScrapeDiscovery.Proofs.Uri.Syntax

/-!
# Reading identifiers

An identifier is read by cutting it at the characters that end its parts, from the outside
to the inside: the scheme at the first colon, the fragment, the query, the path at the first
slash, the user, and the port. Then each part is checked. A text is read as an identifier
exactly if the parts are well formed and the text is how they are written. So no text has two
readings. Whoever puts a text with two colons in place of the host and the port, without
brackets, has written no identifier.

Results:
* `cut_after`, `cut_append_after`: cutting what was put together.
* `readServer?_server`, `text_of_readServer?`: hosts and ports.
* `text_of_split?`, `WellFormed.split?_text`: the parts, both ways.
* `read?_eq_some_iff`: the reader finds exactly what was written.
* `read?_eq_none_of_colons`: colons outside of brackets.
-/

namespace ScrapeDiscovery

open Client.Host (isDottedQuad isVersion6)

namespace Uri

/-! ## Cutting -/

/-- What stands before the first `c`, and what stands after it if there is one. -/
def cut (c : Char) : List Char → List Char × Option (List Char)
  | [] => ([], none)
  | x :: xs => if x = c then ([], some xs) else (x :: (cut c xs).1, (cut c xs).2)

theorem cut_join (c : Char) (cs : List Char) : (cut c cs).1 ++ after c (cut c cs).2 = cs := by
  induction cs with
  | nil => rfl
  | cons x xs ih =>
    rw [cut]
    split
    · next hx => rw [hx]; rfl
    · exact congrArg (x :: ·) ih

theorem not_mem_cut (c : Char) (cs : List Char) : c ∉ (cut c cs).1 := by
  induction cs with
  | nil => exact List.not_mem_nil
  | cons x xs ih =>
    rw [cut]
    split
    · exact List.not_mem_nil
    · next hx => exact fun hmem => (List.mem_cons.mp hmem).elim (fun he => hx he.symm) ih

theorem cut_append {c : Char} {xs : List Char} (h : c ∉ xs) (ys : List Char) :
    cut c (xs ++ ys) = (xs ++ (cut c ys).1, (cut c ys).2) := by
  induction xs with
  | nil => rfl
  | cons x xs ih =>
    have hx : x ≠ c := fun he => h (he ▸ List.mem_cons_self)
    rw [List.cons_append, cut, if_neg hx, ih fun hmem => h (List.mem_cons_of_mem _ hmem)]
    rfl

theorem cut_after (c : Char) (rest : Option (List Char)) : cut c (after c rest) = ([], rest) := by
  cases rest with
  | none => rfl
  | some cs => exact if_pos rfl

/-- What was put together is cut at the same place. -/
theorem cut_append_after {c : Char} {xs : List Char} (h : c ∉ xs) (rest : Option (List Char)) :
    cut c (xs ++ after c rest) = (xs, rest) := by
  rw [cut_append h, cut_after, List.append_nil]

theorem cut_of_not_mem {c : Char} {xs : List Char} (h : c ∉ xs) : cut c xs = (xs, none) := by
  have hcut := cut_append_after h none
  rwa [after, List.append_nil] at hcut

/-! ## Hosts and ports -/

/-- The host that a text without brackets stands for. -/
def Host.ofText (cs : List Char) : Host := if isDottedQuad cs then .version4 cs else .name cs

theorem Host.text_ofText (cs : List Char) : (Host.ofText cs).text = cs := by
  rw [ofText]
  split <;> rfl

/-- Reads a host and the port at it. -/
def readServer? : List Char → Option (Host × Option (List Char))
  | '[' :: cs =>
    match cut ']' cs with
    | (text, some []) => some (.literal text, none)
    | (text, some (':' :: port)) => some (.literal text, some port)
    | _ => none
  | cs => some (.ofText (cut ':' cs).1, (cut ':' cs).2)

theorem text_of_readServer? {cs : List Char} {host : Host} {port : Option (List Char)}
    (h : readServer? cs = some (host, port)) : host.text ++ after ':' port = cs := by
  unfold readServer? at h
  split at h
  · next cs =>
    have hjoin := cut_join ']' cs
    split at h
    · next text hcut =>
      cases h
      rw [hcut] at hjoin
      exact congrArg ('[' :: ·) ((List.append_nil _).trans hjoin)
    · next text port hcut =>
      cases h
      rw [hcut] at hjoin
      exact congrArg ('[' :: ·) ((List.append_assoc text [']'] _).trans hjoin)
    · cases h
  · cases h
    rw [Host.text_ofText]
    exact cut_join ':' cs

theorem readServer?_of_ne {cs : List Char} (h : cs.head? ≠ some '[') :
    readServer? cs = some (.ofText (cut ':' cs).1, (cut ':' cs).2) := by
  unfold readServer?
  split
  · exact absurd rfl h
  · rfl

/-- A host without brackets is read up to the colon of the port. -/
theorem readServer?_ofText {cs : List Char} (hplain : ∀ c ∈ cs, c = '%' ∨ isPlain [] c = true)
    (port : Option (List Char)) :
    readServer? (cs ++ after ':' port) = some (.ofText cs, port) := by
  have hno : ∀ c, c ≠ '%' → isPlain [] c = false → c ∉ cs := fun c hpercent hc hmem =>
    (hplain c hmem).elim hpercent fun he => Bool.false_ne_true (hc.symm.trans he)
  rw [readServer?_of_ne, cut_append_after (hno ':' (by decide) (by decide))]
  intro hhead
  cases cs with
  | nil => cases port <;> cases hhead
  | cons c cs =>
    cases hhead
    exact hno '[' (by decide) (by decide) List.mem_cons_self

theorem readServer?_server {host : Host} (h : host.isWellFormed = true)
    (port : Option (List Char)) :
    readServer? (host.text ++ after ':' port) = some (host, port) := by
  cases host with
  | version4 cs =>
    change isDottedQuad cs = true at h
    rw [Host.text, readServer?_ofText (fun c hc => Or.inr (isPlain_of_isDottedQuad h c hc)),
      Host.ofText, if_pos h]
  | literal cs =>
    have hclose : ']' ∉ cs := by
      intro hmem
      rcases Bool.or_eq_true_iff.mp h with h | h
      · exact absurd (isPlain_of_isVersion6 h _ hmem) (by decide)
      · exact absurd (isPlain_of_isVersionFuture h _ hmem) (by decide)
    have hcut : cut ']' (cs ++ after ']' (some (after ':' port))) = (cs, some (after ':' port)) :=
      cut_append_after hclose _
    rw [Host.text, List.cons_append, List.append_assoc]
    change (match cut ']' (cs ++ after ']' (some (after ':' port))) with
      | (text, some []) => some (Host.literal text, none)
      | (text, some (':' :: port)) => some (.literal text, some port)
      | _ => none) = _
    rw [hcut]
    cases port <;> rfl
  | name cs =>
    obtain ⟨hencoded, hname⟩ := Bool.and_eq_true_iff.mp h
    rw [Host.text, readServer?_ofText (isPlain_of_isEncoded hencoded), Host.ofText, if_neg]
    exact Bool.eq_false_iff.mp ((Bool.not_eq_true' _).mp hname)

/-! ## Reading -/

/-- The user of an authority, and the host with its port. -/
def splitUser (cs : List Char) : Option (List Char) × List Char :=
  match cut '@' cs with
  | (user, some server) => (some user, server)
  | (server, none) => (none, server)

/-- The parts of what follows a scheme and two slashes. -/
def ofRest? (scheme rest : List Char) : Option Uri :=
  let fragment := cut '#' rest
  let query := cut '?' fragment.1
  let path := cut '/' query.1
  let server := splitUser path.1
  (readServer? server.2).map fun (host, port) =>
    { scheme, user := server.1, host, port, path := after '/' path.2
      query := query.2, fragment := fragment.2 }

/-- The parts of an identifier, unchecked. -/
def split? (cs : List Char) : Option Uri :=
  match cut ':' cs with
  | (scheme, some ('/' :: '/' :: rest)) => ofRest? scheme rest
  | _ => none

/-- Reads an identifier. -/
def read? (cs : List Char) : Option Uri := (split? cs).filter fun u => decide u.WellFormed

/-! ## What is read was written -/

theorem splitUser_join (cs : List Char) : before '@' (splitUser cs).1 ++ (splitUser cs).2 = cs := by
  have hjoin := cut_join '@' cs
  unfold splitUser
  split <;> rename_i hcut <;> rw [hcut] at hjoin
  · exact (List.append_assoc _ ['@'] _).trans hjoin
  · exact (List.append_nil _).symm.trans hjoin

theorem text_of_ofRest? {scheme rest : List Char} {u : Uri} (h : ofRest? scheme rest = some u) :
    u.scheme = scheme ∧
      u.authority ++ u.path ++ after '?' u.query ++ after '#' u.fragment = rest := by
  obtain ⟨⟨host, port⟩, hserver, rfl⟩ := Option.map_eq_some_iff.mp h
  refine ⟨rfl, ?_⟩
  have hauthority := splitUser_join (cut '/' (cut '?' (cut '#' rest).1).1).1
  rw [← text_of_readServer? hserver] at hauthority
  refine Eq.trans ?_ (cut_join '#' rest)
  refine congrArg (· ++ _) (Eq.trans ?_ (cut_join '?' _))
  refine congrArg (· ++ _) (Eq.trans ?_ (cut_join '/' _))
  exact congrArg (· ++ _) hauthority

theorem text_of_split? {cs : List Char} {u : Uri} (h : split? cs = some u) : u.text = cs := by
  unfold split? at h
  split at h
  · next scheme rest hcut =>
    obtain ⟨hscheme, hrest⟩ := text_of_ofRest? h
    have hjoin := cut_join ':' cs
    rw [hcut] at hjoin
    rw [text, hscheme, hrest]
    exact hjoin
  · cases h

/-! ## What was written is read -/

theorem splitUser_authority {u : Uri} (huser : ∀ cs ∈ u.user, '@' ∉ cs)
    (hserver : '@' ∉ u.server) : splitUser u.authority = (u.user, u.server) := by
  unfold splitUser authority
  cases hu : u.user with
  | none => rw [before, List.nil_append, cut_of_not_mem hserver]
  | some cs =>
    have hcut := cut_append_after (huser cs hu) (some u.server)
    rw [before, List.append_assoc]
    exact hcut ▸ rfl

theorem exists_after_of_isPath {cs : List Char} (h : isPath cs = true) :
    ∃ rest, cs = after '/' rest := by
  rcases Bool.or_eq_true_iff.mp (Bool.and_eq_true_iff.mp h).1 with hempty | hslash
  · exact ⟨none, List.isEmpty_iff.mp hempty⟩
  · obtain ⟨tail, rfl⟩ := List.head?_eq_some_iff.mp (of_decide_eq_true hslash)
    exact ⟨some tail, rfl⟩

/-- A part that may be missing has no character that neither begins it nor is in it. -/
theorem not_mem_after {c d : Char} (hne : d ≠ c) {part : Option (List Char)}
    (h : ∀ cs ∈ part, d ∉ cs) : d ∉ after c part := by
  cases part with
  | none => exact List.not_mem_nil
  | some cs => exact fun hmem => (List.mem_cons.mp hmem).elim hne (h cs rfl)

theorem WellFormed.ofRest?_text {u : Uri} (h : u.WellFormed) :
    ofRest? u.scheme (u.authority ++ u.path ++ after '?' u.query ++ after '#' u.fragment) =
      some u := by
  have hpath := (Bool.and_eq_true_iff.mp h.path).2
  have hno : ∀ c, (c = '@' || isServerChar c) = false → c ∉ u.authority := fun c hc hmem =>
    Bool.false_ne_true (hc.symm.trans (h.isServerChar_of_mem_authority c hmem))
  have hquestion : '?' ∉ u.authority ++ u.path :=
    List.not_mem_append (hno '?' (by decide)) (not_mem_of_isEncoded hpath (by decide) (by decide))
  have hhash : '#' ∉ u.authority ++ u.path ++ after '?' u.query := by
    refine List.not_mem_append (List.not_mem_append (hno '#' (by decide)) ?_) ?_
    · exact not_mem_of_isEncoded hpath (by decide) (by decide)
    · exact not_mem_after (by decide) fun cs hcs =>
        not_mem_of_isEncoded (h.query cs hcs) (by decide) (by decide)
  have huser := splitUser_authority
    (fun cs hcs => not_mem_of_isEncoded (h.user cs hcs) (by decide) (by decide))
    fun hmem => absurd (h.isServerChar_of_mem_server _ hmem) (by decide)
  obtain ⟨rest, hrest⟩ := exists_after_of_isPath h.path
  have hcut : cut '/' (u.authority ++ u.path) = (u.authority, rest) := by
    rw [hrest, cut_append_after (hno '/' (by decide))]
  simp only [ofRest?, cut_append_after hhash, cut_append_after hquestion, hcut, huser]
  rw [server, readServer?_server h.host, Option.map_some, ← hrest]

theorem WellFormed.split?_text {u : Uri} (h : u.WellFormed) : split? u.text = some u := by
  have hcut := cut_append_after (not_mem_scheme h.scheme) (some ('/' :: '/' ::
    (u.authority ++ u.path ++ after '?' u.query ++ after '#' u.fragment)))
  unfold split?
  rw [text]
  rw [after] at hcut
  rw [hcut]
  exact h.ofRest?_text

/-- A text is read as an identifier exactly if its parts are well formed and it is how they are
    written. -/
theorem read?_eq_some_iff {cs : List Char} {u : Uri} :
    read? cs = some u ↔ u.WellFormed ∧ u.text = cs := by
  rw [read?, Option.filter_eq_some_iff, decide_eq_true_iff]
  constructor
  · rintro ⟨hsplit, hwell⟩
    exact ⟨hwell, text_of_split? hsplit⟩
  · rintro ⟨hwell, rfl⟩
    exact ⟨hwell.split?_text, hwell⟩

/-! ## Colons outside of brackets -/

/-- What stands in place of the host and the port has two colons and no brackets. Then nothing is
    read, whatever the scheme is and whatever follows the slash. -/
theorem read?_eq_none_of_colons {scheme server rest : List Char} (hscheme : ':' ∉ scheme)
    (hserver : ∀ c ∈ server, isPlain [':'] c = true) (hcolons : 2 ≤ server.count ':') :
    read? (scheme ++ ':' :: '/' :: '/' :: (server ++ '/' :: rest)) = none := by
  have hno : ∀ c, isPlain [':'] c = false → c ∉ server := fun c hc hmem =>
    Bool.false_ne_true (hc.symm.trans (hserver c hmem))
  have hslash : ∀ rest, cut '/' (server ++ '/' :: rest) = (server, some rest) := fun rest =>
    cut_append_after (hno '/' (by decide)) (some rest)
  have huser : splitUser server = (none, server) := by
    rw [splitUser, cut_of_not_mem (hno '@' (by decide))]
  have hhead : server.head? ≠ some '[' := fun hhead =>
    hno '[' (by decide) (List.mem_of_mem_head? hhead)
  -- everything up to the slash is taken for the authority
  obtain ⟨u, hsplit, hport⟩ : ∃ u, split? (scheme ++ ':' :: '/' :: '/' :: (server ++ '/' :: rest)) =
      some u ∧ u.port = (cut ':' server).2 := by
    have hcut := cut_append_after hscheme (some ('/' :: '/' :: (server ++ '/' :: rest)))
    rw [after] at hcut
    unfold split?
    rw [hcut]
    have hhash : cut '#' (server ++ '/' :: rest) =
        (server ++ '/' :: (cut '#' rest).1, (cut '#' rest).2) :=
      cut_append (hno '#' (by decide)) _
    have hquestion : ∀ rest, cut '?' (server ++ '/' :: rest) =
        (server ++ '/' :: (cut '?' rest).1, (cut '?' rest).2) := fun rest =>
      cut_append (hno '?' (by decide)) _
    simp only [ofRest?, hhash, hquestion, hslash, huser, readServer?_of_ne hhead]
    exact ⟨_, rfl, rfl⟩
  rw [read?, hsplit, Option.filter_some, if_neg]
  rw [decide_eq_true_iff]
  intro hwell
  -- the port begins after the first colon, so that the second one is in it
  rw [← cut_join ':' server, List.count_append, List.count_eq_zero.mpr (not_mem_cut ':' server),
    ← hport] at hcolons
  cases hu : u.port with
  | none =>
    rw [hu] at hcolons
    exact absurd hcolons (by decide)
  | some port =>
    rw [hu, after, List.count_cons_self] at hcolons
    have hcolon : ':' ∈ port := List.count_pos_iff.mp (by omega)
    exact absurd (List.all_eq_true.mp (hwell.port port hu) _ hcolon) (by decide)

end Uri

end ScrapeDiscovery

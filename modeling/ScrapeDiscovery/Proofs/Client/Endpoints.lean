import Mathlib.Data.List.Infix
import ScrapeDiscovery.Client.Command
import ScrapeDiscovery.Proofs.Client.Hosts
import ScrapeDiscovery.Proofs.Steps

/-!
# Where commands ask

The address of an agent is resolved with the endpoint of a command as a relative reference,
so the endpoint takes the place of whatever stands behind the last slash of the path. Below
an address whose path ends in a slash, as that of a bare host does, the endpoint is asked for
where it is expected. Of any other path the last segment is lost.

The path of an address has no other slashes than those between its segments: a slash of the
address ends a segment, and no other character is written with one.

Results:
* `Text.ofNat_mem_of_mem_utf8Bytes`: bytes below 128 are characters of the text.
* `Address.areSegments_walk`: no segment of a path has a slash.
* `Address.exists_segments_of_parse`: the path of an address of the web that is read.
* `Address.path_append`: the path as it is written, split at its last slash.
* `Command.path_below_iff`: when commands ask below the path of the address.
-/

namespace ScrapeDiscovery

/-! ## The bytes of a text -/

namespace Text

theorem toList_loop (bytes : ByteArray) (i : Nat) (read : List UInt8) :
    ByteArray.toList.loop bytes i read = read.reverse ++ bytes.data.toList.drop i := by
  fun_induction ByteArray.toList.loop bytes i read with
  | case1 i read hi ih =>
    have hget : bytes.get! i = bytes.data.toList.get ⟨i, hi⟩ := getElem!_pos bytes.data i hi
    rw [ih, List.drop_eq_getElem_cons hi, List.reverse_cons, List.append_assoc, hget]
    rfl
  | case2 i read hi =>
    rw [List.drop_eq_nil_of_le (Nat.not_lt.mp hi), List.append_nil]

theorem utf8Bytes_ofList (cs : List Char) :
    utf8Bytes (String.ofList cs) = (cs.flatMap String.utf8EncodeChar).map UInt8.toNat := by
  rw [utf8Bytes, String.toUTF8_eq_toByteArray, String.toByteArray_ofList, ByteArray.toList,
    toList_loop, List.utf8Encode, List.toList_data_toByteArray]
  rfl

theorem lt_of_mem_utf8Bytes {s : String} {b : Nat} (hb : b ∈ utf8Bytes s) : b < 256 := by
  obtain ⟨byte, -, rfl⟩ := List.mem_map.mp hb
  exact byte.toNat_lt

/-- A byte below 128 encodes one character, which is the one of that number. -/
theorem ofNat_toNat_of_mem_utf8EncodeChar {c : Char} {b : UInt8}
    (hb : b ∈ String.utf8EncodeChar c) (hlt : b.toNat < 128) : Char.ofNat b.toNat = c := by
  have hbyte : ∀ n, (UInt8.ofNat n).toNat = n % 256 := fun _ => UInt8.toNat_ofNat'
  unfold String.utf8EncodeChar at hb
  dsimp only at hb
  split_ifs at hb with hone
  · obtain rfl := List.mem_singleton.mp hb
    rw [hbyte, Nat.mod_eq_of_lt (by omega)]
    exact Char.ofNat_toNat c
  -- every byte of a longer encoding has its highest bit set
  all_goals
    simp only [List.mem_cons, List.not_mem_nil, or_false] at hb
    rcases hb with rfl | rfl | rfl | rfl <;>
      · rw [hbyte] at hlt
        omega

theorem ofNat_mem_of_mem_utf8Bytes {cs : List Char} {b : Nat}
    (hb : b ∈ utf8Bytes (String.ofList cs)) (hlt : b < 128) : Char.ofNat b ∈ cs := by
  rw [utf8Bytes_ofList] at hb
  obtain ⟨byte, hbyte, rfl⟩ := List.mem_map.mp hb
  obtain ⟨c, hc, hbyte⟩ := List.mem_flatMap.mp hbyte
  rw [ofNat_toNat_of_mem_utf8EncodeChar hbyte hlt]
  exact hc

/-- No piece of a text has a separator. -/
theorem not_isSeparator_of_mem_splitOnChar {isSeparator : Char → Bool} {cs piece : List Char}
    (hpiece : piece ∈ splitOnChar isSeparator cs) : ∀ c ∈ piece, isSeparator c = false := by
  induction cs generalizing piece with
  | nil =>
    rw [List.mem_singleton.mp hpiece]
    exact fun c hc => absurd hc List.not_mem_nil
  | cons d cs ih =>
    obtain ⟨first, pieces, hcs, hdcs⟩ := splitOnChar_cons isSeparator d cs
    rw [hdcs] at hpiece
    rw [hcs] at ih
    split at hpiece
    · rcases List.mem_cons.mp hpiece with rfl | hpiece
      · exact fun c hc => absurd hc List.not_mem_nil
      · exact ih hpiece
    · next hd =>
      rcases List.mem_cons.mp hpiece with rfl | hpiece
      · exact List.forall_mem_cons.mpr
          ⟨Bool.eq_false_iff.mpr hd, ih List.mem_cons_self⟩
      · exact ih (List.mem_cons_of_mem _ hpiece)

end Text

namespace Client

/-! ## The segments of a path -/

namespace Address

theorem slash_not_mem_percentEncode {b : Nat} (hb : b < 256) : '/' ∉ Text.percentEncode b := by
  have hdigit : ∀ n < 16, '/' ≠ Text.hexDigit n := by decide
  rw [Text.percentEncode, List.mem_cons, List.mem_cons, List.mem_singleton]
  rintro (h | h | h)
  · exact absurd h (by decide)
  · exact hdigit (b / 16) (by omega) h
  · exact hdigit (b % 16) (by omega) h

/-- A segment is written without a slash if it has none. -/
theorem slash_not_mem_encodeSegment {cs : List Char} (hcs : '/' ∉ cs) :
    '/' ∉ (encodeSegment cs).toList := by
  rw [encodeSegment, String.toList_ofList]
  intro h
  obtain ⟨b, hb, h⟩ := List.mem_flatMap.mp h
  split at h
  · next hpath =>
    have hlt : b < 128 := by
      simp only [isPathByte, Bool.and_eq_true, decide_eq_true_eq] at hpath
      omega
    have hmem := Text.ofNat_mem_of_mem_utf8Bytes hb hlt
    rw [← List.mem_singleton.mp h] at hmem
    exact hcs hmem
  · exact slash_not_mem_percentEncode (Text.lt_of_mem_utf8Bytes hb) h

/-- Segments as they stand between the slashes of a path. -/
def AreSegments (path : List String) : Prop := ∀ s ∈ path, '/' ∉ s.toList

theorem areSegments_step {path : List String} {segment : List Char} {isLast : Bool}
    (hpath : AreSegments path) (hsegment : '/' ∉ segment) :
    AreSegments (step path segment isLast) := by
  have hend : AreSegments (if isLast then [""] else []) := by
    cases isLast with
    | false => exact fun s hs => absurd hs List.not_mem_nil
    | true =>
      intro s hs
      rw [List.mem_singleton.mp hs]
      exact List.not_mem_nil
  unfold step
  split
  · exact List.forall_mem_append.mpr ⟨fun s hs => hpath s (List.mem_of_mem_dropLast hs), hend⟩
  · split
    · exact List.forall_mem_append.mpr ⟨hpath, hend⟩
    · refine List.forall_mem_append.mpr ⟨hpath, fun s hs => ?_⟩
      rw [List.mem_singleton.mp hs]
      exact slash_not_mem_encodeSegment hsegment

/-- No segment of a path has a slash. -/
theorem areSegments_walk {path : List String} {reference : List (List Char)}
    (hpath : AreSegments path) (hreference : ∀ segment ∈ reference, '/' ∉ segment) :
    AreSegments (walk path reference) := by
  induction reference generalizing path with
  | nil => exact hpath
  | cons s rest ih =>
    obtain ⟨hs, hrest⟩ := List.forall_mem_cons.mp hreference
    cases rest with
    | nil => exact areSegments_step hpath hs
    | cons t rest => exact ih (areSegments_step hpath hs) hrest

theorem step_last_ne_nil (path : List String) (segment : List Char) :
    step path segment true ≠ [] := by
  rw [step]
  split
  · exact List.append_ne_nil_of_right_ne_nil _ (List.cons_ne_nil _ _)
  · split <;> exact List.append_ne_nil_of_right_ne_nil _ (List.cons_ne_nil _ _)

theorem walk_ne_nil {path : List String} {reference : List (List Char)} (h : reference ≠ []) :
    walk path reference ≠ [] := by
  induction reference generalizing path with
  | nil => exact absurd rfl h
  | cons s rest ih =>
    cases rest with
    | nil => exact step_last_ne_nil path s
    | cons t rest => exact ih (List.cons_ne_nil _ _)

/-- In an address of the web there is a path, though it may have a single segment that is empty. -/
theorem readPath_ofWeb (cs : List Char) :
    readPath true cs ≠ [] ∧ AreSegments (readPath true cs) := by
  unfold readPath
  split
  · refine ⟨List.cons_ne_nil _ _, fun s hs => ?_⟩
    rw [List.mem_singleton.mp hs]
    exact List.not_mem_nil
  · next c rest _ =>
    set text := if isSlash true c then rest else c :: rest
    constructor
    · obtain ⟨piece, pieces, hpieces⟩ :=
        List.exists_cons_of_ne_nil (Text.splitOnChar_ne_nil (isSlash true) text)
      rw [hpieces]
      exact walk_ne_nil (List.cons_ne_nil _ _)
    · refine areSegments_walk (fun s hs => absurd hs List.not_mem_nil) fun piece hpiece hslash => ?_
      exact absurd (Text.not_isSeparator_of_mem_splitOnChar hpiece _ hslash) (by decide)

/-! ## Addresses of the web -/

theorem scheme_readFile {cs : List Char} {a : Address} (h : readFile cs = .ok a) :
    a.scheme = "file" := by
  unfold readFile at h
  split at h
  · split at h
    · dsimp only at h
      split at h
      all_goals
        obtain ⟨host, -, h⟩ := bind_eq_ok_iff.mp h
        rw [← Except.ok.inj h]
    · rw [← Except.ok.inj h]
  · rw [← Except.ok.inj h]

theorem readAuthority_spec {scheme : String} {ofWeb : Bool} {cs : List Char} {a : Address}
    (h : readAuthority scheme ofWeb cs = .ok a) :
    a.scheme = scheme ∧ ∃ rest, a.segments = some (readPath ofWeb rest) := by
  unfold readAuthority at h
  dsimp only at h
  -- a host or a port that is out of place ends the reading
  split at h
  · cases h
  split at h
  · cases h
  split at h
  all_goals
    obtain ⟨host, -, h⟩ := bind_eq_ok_iff.mp h
    obtain ⟨port, -, h⟩ := bind_eq_ok_iff.mp h
    rw [← Except.ok.inj h]
    exact ⟨rfl, _, rfl⟩

/-- An address of the web that is read has a path of one segment at least, and no segment has a
    slash. -/
theorem exists_segments_of_parse {s : String} {a : Address} (h : parse s = .ok a)
    (hweb : a.isHttp = true) :
    ∃ folder file, a.segments = some (folder ++ [file]) ∧ '/' ∉ file.toList := by
  have hscheme : (defaultPort? a.scheme).isSome = true := by
    rcases Bool.or_eq_true_iff.mp hweb with h | h
    · rw [of_decide_eq_true h]
      rfl
    · rw [of_decide_eq_true h]
      rfl
  have hpath : ∃ rest, a.segments = some (readPath true rest) := by
    unfold parse at h
    split at h
    · cases h
    · split_ifs at h with hfile hport
      · rw [scheme_readFile h] at hscheme
        cases hscheme
      · exact (readAuthority_spec h).2
      · -- no other scheme is one of the web
        refine absurd ?_ hport
        split at h
        · rw [← (readAuthority_spec h).1]
          exact hscheme
        · rw [← Except.ok.inj h] at hscheme
          exact hscheme
        · rw [← Except.ok.inj h] at hscheme
          exact hscheme
  obtain ⟨rest, hsegments⟩ := hpath
  obtain ⟨hne, hslash⟩ := readPath_ofWeb rest
  refine ⟨(readPath true rest).dropLast, (readPath true rest).getLast hne, ?_,
    hslash _ (List.getLast_mem hne)⟩
  rw [List.dropLast_append_getLast, hsegments]

/-! ## Paths as they are written -/

/-- The text of a path up to its last slash, which is not part of it. -/
def folderText (folder : List String) : String := String.join (folder.map ("/" ++ ·))

theorem folderText_cons (s : String) (folder : List String) :
    folderText (s :: folder) = "/" ++ (s ++ folderText folder) := by
  rw [folderText, List.map_cons, String.join_cons, String.append_assoc]
  rfl

/-- A path is written with a slash before each of its segments. -/
theorem path_append {a : Address} {folder rest : List String} (hrest : rest ≠ [])
    (h : a.segments = some (folder ++ rest)) :
    a.path = folderText folder ++ "/" ++ "/".intercalate rest := by
  have hpath : a.path = "/" ++ "/".intercalate (folder ++ rest) := by
    obtain ⟨s, ss, hs⟩ :=
      List.exists_cons_of_ne_nil (List.append_ne_nil_of_right_ne_nil folder hrest)
    rw [path, h, hs]
  rw [hpath]
  clear h hpath
  induction folder with
  | nil => rfl
  | cons s folder ih =>
    have hne := List.append_ne_nil_of_right_ne_nil folder hrest
    rw [List.cons_append, String.intercalate_cons_of_ne_nil hne, String.append_assoc, ih,
      folderText_cons]
    simp only [String.append_assoc]

/-- Whether a path ends in a slash. -/
def endsInSlash (path : String) : Bool := path.toList.getLast? = some '/'

/-- A path without the slash at its end, if there is one. -/
def withoutSlash (path : String) : String :=
  if endsInSlash path then String.ofList path.toList.dropLast else path

theorem endsInSlash_iff {folder file : String} (hfile : '/' ∉ file.toList) :
    endsInSlash (folder ++ "/" ++ file) = true ↔ file = "" := by
  rw [endsInSlash, decide_eq_true_iff, String.toList_append, List.getLast?_append]
  constructor
  · intro h
    cases hlast : file.toList.getLast? with
    | none => exact String.toList_eq_nil_iff.mp (List.getLast?_eq_none_iff.mp hlast)
    | some c =>
      rw [hlast, Option.some_or] at h
      rw [← Option.some.inj h] at hfile
      exact absurd (List.mem_of_getLast? hlast) hfile
  · rintro rfl
    rw [String.toList_append]
    exact List.getLast?_concat

theorem withoutSlash_append_slash (folder : String) : withoutSlash (folder ++ "/") = folder := by
  have hends : endsInSlash (folder ++ "/") = true := by
    rw [endsInSlash, decide_eq_true_iff, String.toList_append]
    exact List.getLast?_concat
  rw [withoutSlash, if_pos hends, String.toList_append]
  exact (congrArg String.ofList List.dropLast_concat).trans String.ofList_toList

end Address

/-! ## Where commands ask -/

namespace Command

open Address

/-- The endpoint of a command as it is written. -/
def endpointText (c : Command) : String := "/".intercalate c.endpoint

theorem endpoint_ne_nil (c : Command) : c.endpoint ≠ [] := by
  cases c <;> exact List.cons_ne_nil _ _

/-- A command asks the host of the address, with the endpoint behind the last slash of its path. -/
theorem prepare_eq_ok (c : Command) {address : String} {base : Address}
    (hread : Address.parse address = .ok base) (hweb : base.isHttp = true) :
    ∃ r folder file, c.prepare address = .ok r ∧
      r.address = { base with segments := r.address.segments } ∧ r.query = c.query ∧
      base.path = folder ++ "/" ++ file ∧ '/' ∉ file.toList ∧
      r.address.path = folder ++ "/" ++ c.endpointText := by
  obtain ⟨folder, file, hsegments, hslash⟩ := exists_segments_of_parse hread hweb
  let r : Request :=
    { address := { base with segments := some (folder ++ c.endpoint) }, query := c.query }
  have hrequest : c.request? base = some r := by
    rw [request?_path hsegments, List.dropLast_concat]
  refine ⟨r, folderText folder, file, ?_, rfl, rfl, ?_, hslash,
    path_append c.endpoint_ne_nil rfl⟩
  · rw [prepare, hread]
    dsimp only
    rw [hrequest]
    exact if_pos hweb
  · rw [path_append (List.cons_ne_nil _ _) hsegments, String.intercalate_singleton]

/-- A request that is prepared is the only one that is sent. -/
theorem requests_run {c : Command} {address : String} {r : Request}
    (h : c.prepare address = .ok r) (format : Format) (colored : Bool)
    (ask : Request → Option Reply) :
    (c.run address format colored ask).requests = ((ask r).map fun _ => r).toList := by
  rw [run, h]
  dsimp only
  cases ask r <;> rfl

/-- Let an address of the web be read. A command sends one request, to the scheme, the host and the
    port of the address, and the endpoint stands where the text behind the last slash of the path
    stood. That is the path without a slash at its end, a slash and the endpoint exactly if the
    path ends in a slash. -/
theorem path_below_iff (c : Command) {address : String} {base : Address}
    (hread : Address.parse address = .ok base) (hweb : base.isHttp = true) :
    ∃ r, c.prepare address = .ok r ∧
      (∀ format colored ask,
        (c.run address format colored ask).requests = ((ask r).map fun _ => r).toList) ∧
      r.address.scheme = base.scheme ∧ r.address.host = base.host ∧
      r.address.port = base.port ∧ r.query = c.query ∧
      (∃ folder file, base.path = folder ++ "/" ++ file ∧ '/' ∉ file.toList ∧
        r.address.path = folder ++ "/" ++ c.endpointText) ∧
      (r.address.path = withoutSlash base.path ++ "/" ++ c.endpointText ↔
        endsInSlash base.path = true) := by
  obtain ⟨r, folder, file, hprepare, hsame, hquery, hbase, hfile, hpath⟩ :=
    c.prepare_eq_ok hread hweb
  refine ⟨r, hprepare, requests_run hprepare, by rw [hsame], by rw [hsame], by rw [hsame], hquery,
    ⟨folder, file, hbase, hfile, hpath⟩, ?_⟩
  constructor
  · intro h
    by_contra hends
    rw [withoutSlash, if_neg hends, hpath, hbase] at h
    -- one side has a slash more, and the text behind the last one
    have hlength := congrArg String.length h
    simp only [String.length_append] at hlength
    have : "/".length = 1 := rfl
    omega
  · intro hends
    rw [hbase, endsInSlash_iff hfile] at hends
    rw [hpath, hbase, hends, String.append_empty, withoutSlash_append_slash]

/-- Behind a proxy that has the agents in folders, the status is asked for in the folder. -/
theorem path_below_folder :
    ∃ r, status.prepare "https://proxy:8443/agents/a/" = .ok r ∧
      r.address.path = "/agents/a/api/v1/status" := by
  have hread : Address.parse "https://proxy:8443/agents/a/" =
      .ok ⟨"https", "proxy", some 8443, some ["agents", "a", ""]⟩ := by decide +kernel
  obtain ⟨r, hprepare, -, -, -, -, -, -, hbelow⟩ := status.path_below_iff hread rfl
  exact ⟨r, hprepare, hbelow.mpr (by decide +kernel)⟩

/-- With the same path without a slash at its end the last folder is lost. -/
theorem exists_path_lost :
    ∃ base r, Address.parse "http://127.0.0.1:8080/proxy/v1" = .ok base ∧ base.isHttp = true ∧
      withoutSlash base.path = "/proxy/v1" ∧
      rules.prepare "http://127.0.0.1:8080/proxy/v1" = .ok r ∧
      r.address.path = "/proxy/api/v1/rules" ∧
      r.address.path ≠ withoutSlash base.path ++ "/" ++ rules.endpointText := by
  refine ⟨⟨"http", "127.0.0.1", some 8080, some ["proxy", "v1"]⟩,
    ⟨⟨"http", "127.0.0.1", some 8080, some ["proxy", "api", "v1", "rules"]⟩, []⟩, ?_⟩
  decide +kernel

end Command

end Client

end ScrapeDiscovery

import ScrapeDiscovery.Client.Address
import ScrapeDiscovery.Proofs.Scrape.Encoding
import ScrapeDiscovery.Proofs.Uri.Reading

/-!
# The addresses of prometheus targets

The address of a prometheus target is put together from the scheme, the address of the
resource, the port if there is one, and the path, just as they are. For an IP address of
version 4 it is read again as these parts, whatever they are, if the path is one by the
syntax of identifiers and not, say, a path with a query. An IP address of version 6 would
have to stand between brackets. It does not, and then nothing can be read.

Results:
* `Encoder.url_of_encodePrometheus`: the address that is encoded.
* `ScrapeAddress.read?_url_of_isVersion6`: nothing is read with version 6.
* `Encoder.url_read_iff`: when the address is read as what it was made of.
* `exists_url_unreadable`: a pod with an address of version 6.
-/

namespace ScrapeDiscovery

open Client.Host (isDottedQuad isVersion6)

/-- How a prometheus target is reached at the address of its resource. -/
structure ScrapeAddress where
  scheme : String
  /-- The port, empty for the one of the scheme. -/
  port : String
  path : String
  deriving DecidableEq, Repr

/-- How the settings that count say that a resource is reached. -/
def AnnotationKeys.address (keys : AnnotationKeys) (object : ObjectMeta) (rule : Option Rule) :
    ScrapeAddress :=
  let r := rule.getD { name := "", pluginType := "" }
  { scheme := setting object (some (keys.key "scheme")) r.scheme "http"
    port := Encoder.targetPort object (setting object (some (keys.key "port")) r.port "")
    path := setting object (some (keys.key "path")) r.path "/metrics" }

namespace ScrapeAddress

/-- The address of a target as it is put together. -/
def url (e : ScrapeAddress) (ip : String) : String :=
  e.scheme ++ "://" ++ ip ++ (if e.port = "" then "" else ":" ++ e.port) ++ e.path

/-- The host that an IP address is. -/
def host (ip : String) : Uri.Host :=
  if isVersion6 ip.toList then .literal ip.toList else .version4 ip.toList

/-- The port, if there is one. -/
def port? (e : ScrapeAddress) : Option (List Char) :=
  if e.port = "" then none else some e.port.toList

/-- Whether an identifier has the parts that an address was put together from. -/
def IsToldBy (e : ScrapeAddress) (ip : String) (u : Uri) : Prop :=
  u.scheme = e.scheme.toList ∧ u.host = host ip ∧ u.port = e.port? ∧ u.path = e.path.toList

theorem toList_url (e : ScrapeAddress) (ip : String) :
    (e.url ip).toList = e.scheme.toList ++ ':' :: '/' :: '/' ::
      (ip.toList ++ Uri.after ':' e.port? ++ e.path.toList) := by
  have hport : (if e.port = "" then "" else ":" ++ e.port).toList = Uri.after ':' e.port? := by
    rw [port?]
    split
    · rfl
    · rw [String.toList_append]
      rfl
  rw [url, String.toList_append, String.toList_append, String.toList_append,
    String.toList_append, hport, List.append_assoc, List.append_assoc, List.append_assoc,
    List.append_assoc]
  rfl

variable {e : ScrapeAddress} {ip : String}

theorem isScheme_of_isAlpha {cs : List Char} (hne : cs ≠ [])
    (halpha : ∀ c ∈ cs, c.isAlpha = true) : Uri.isScheme cs = true := by
  cases cs with
  | nil => exact absurd rfl hne
  | cons c cs =>
    obtain ⟨hc, hcs⟩ := List.forall_mem_cons.mp halpha
    rw [Uri.isScheme, hc, Bool.true_and, List.all_eq_true]
    intro d hd
    rw [Char.isAlphanum, hcs d hd]
    rfl

/-- With an address of version 4 and a path the parts make up an identifier. -/
theorem read?_url_of_isDottedQuad (hscheme : Uri.isScheme e.scheme.toList = true)
    (hip : isDottedQuad ip.toList = true) (hport : ∀ c ∈ e.port.toList, c.isDigit = true)
    (hpath : Uri.isPath e.path.toList = true) :
    ∃ u, Uri.read? (e.url ip).toList = some u ∧ e.IsToldBy ip u := by
  have hhost : host ip = .version4 ip.toList := by
    rw [host, Client.Host.isVersion6_of_isDottedQuad hip]
    rfl
  refine ⟨{ scheme := e.scheme.toList, host := host ip, port := e.port?, path := e.path.toList },
    Uri.read?_eq_some_iff.mpr ⟨?_, ?_⟩, rfl, rfl, rfl, rfl⟩
  · refine ⟨hscheme, nofun, by rwa [hhost], fun cs hcs => ?_, hpath, nofun, nofun⟩
    obtain ⟨-, hsome⟩ := Option.ite_none_left_eq_some.mp hcs
    obtain rfl := Option.some.inj hsome
    exact List.all_eq_true.mpr hport
  · rw [toList_url, Uri.text, Uri.authority, Uri.server, hhost]
    simp [Uri.before, Uri.after, Uri.Host.text]

/-- With an address of version 6 nothing is read, whatever the port and the path are. -/
theorem read?_url_of_isVersion6 (hscheme : Uri.isScheme e.scheme.toList = true)
    (hip : isVersion6 ip.toList = true) (hport : ∀ c ∈ e.port.toList, c.isDigit = true)
    (hpath : e.path.toList.head? = some '/') : Uri.read? (e.url ip).toList = none := by
  obtain ⟨rest, hrest⟩ := List.head?_eq_some_iff.mp hpath
  rw [toList_url, hrest]
  refine Uri.read?_eq_none_of_colons (Uri.not_mem_scheme hscheme) ?_ ?_
  · intro c hc
    rcases List.mem_append.mp hc with hc | hc
    · exact Uri.isPlain_of_isVersion6 hip c hc
    · rw [port?] at hc
      split at hc
      · exact absurd hc List.not_mem_nil
      · rcases List.mem_cons.mp hc with rfl | hc
        · decide
        · refine Uri.isPlain_of_isAlphanum ?_ _
          rw [Char.isAlphanum, hport c hc, Bool.or_true]
  · rw [List.count_append]
    exact Nat.le_add_right_of_le (Client.Host.two_le_count_of_isVersion6 hip)

end ScrapeAddress

theorem setting_ne_empty {object : ObjectMeta} {source : Option String} {ruleValue default : String}
    (hdefault : default ≠ "") : setting object source ruleValue default ≠ "" := by
  simp only [setting]
  split
  · assumption
  · split
    · assumption
    · exact hdefault

namespace Encoder

variable {keys : AnnotationKeys} {nodeName ip : String} {kind : ResourceKind}
  {object : ObjectMeta} {rule : Option Rule} {c : PrometheusConfig}

theorem url_of_encodePrometheus
    (h : encodePrometheus keys nodeName ip kind object rule = .ok (some (.prometheus c))) :
    c.url = (keys.address object rule).url ip := by
  obtain ⟨c', hc, -, hurl, -⟩ := encodePrometheus_eq_ok h
  obtain rfl := ScrapeConfig.prometheus.inj hc
  exact hurl

/-- Let a resource with an IP address be encoded, let the scheme that counts have letters only, the
    port digits only, if there is one, and let the path begin with a slash. The address of the
    target is read as the scheme, the IP address, the port and the path that it was made of exactly
    if the IP address is one of version 4 and the path is one by the syntax of identifiers. With an
    IP address of version 6 it cannot be read at all. -/
theorem url_read_iff
    (h : encodePrometheus keys nodeName ip kind object rule = .ok (some (.prometheus c)))
    (hip : isDottedQuad ip.toList = true ∨ isVersion6 ip.toList = true)
    (hscheme : ∀ x ∈ (keys.address object rule).scheme.toList, x.isAlpha = true)
    (hport : ∀ x ∈ (keys.address object rule).port.toList, x.isDigit = true)
    (hpath : (keys.address object rule).path.toList.head? = some '/') :
    ((∃ u, Uri.read? c.url.toList = some u ∧ (keys.address object rule).IsToldBy ip u) ↔
      isDottedQuad ip.toList = true ∧ Uri.isPath (keys.address object rule).path.toList = true) ∧
    (isVersion6 ip.toList = true → Uri.read? c.url.toList = none) := by
  have hurl := url_of_encodePrometheus h
  have hne : (keys.address object rule).scheme.toList ≠ [] := fun hempty =>
    setting_ne_empty (by decide) (String.toList_eq_nil_iff.mp hempty)
  have hscheme' := ScrapeAddress.isScheme_of_isAlpha hne hscheme
  have hnone : isVersion6 ip.toList = true → Uri.read? c.url.toList = none := fun hsix => by
    rw [hurl]
    exact ScrapeAddress.read?_url_of_isVersion6 hscheme' hsix hport hpath
  refine ⟨⟨?_, ?_⟩, hnone⟩
  · rintro ⟨u, hread, -, -, -, htold⟩
    refine ⟨hip.resolve_right fun hsix => ?_, htold ▸ (Uri.read?_eq_some_iff.mp hread).1.path⟩
    exact absurd ((hnone hsix).symm.trans hread) nofun
  · rintro ⟨hfour, hp⟩
    rw [hurl]
    exact ScrapeAddress.read?_url_of_isDottedQuad hscheme' hfour hport hp

/-- A rule names the port of a pod with an address of version 4. -/
theorem url_read_of_version4 :
    let rule : Rule := { name := "a", pluginType := "prometheus", port := "9102" }
    let object : ObjectMeta := { name := "x", ns := "ns" }
    ∃ c, encodePrometheus (.ofPrefix "") "node-1" "10.0.0.7" .pod object (some rule) =
        .ok (some (.prometheus c)) ∧
      ∃ u, Uri.read? c.url.toList = some u ∧ u.host = .version4 "10.0.0.7".toList ∧
        u.port = some "9102".toList ∧ u.path = "/metrics".toList := by
  have henc : ∃ c, encodePrometheus (.ofPrefix "") "node-1" "10.0.0.7" .pod
      { name := "x", ns := "ns" }
      (some { name := "a", pluginType := "prometheus", port := "9102" }) =
        .ok (some (.prometheus c)) := ⟨_, rfl⟩
  obtain ⟨c, hc⟩ := henc
  refine ⟨c, hc, ?_⟩
  have hscheme : ("http".toList.all Char.isAlpha) = true := by decide
  have hport : ("9102".toList.all Char.isDigit) = true := by decide
  obtain ⟨u, hread, -, hhost, hport, hpath⟩ :=
    (url_read_iff hc (by decide) (List.all_eq_true.mp hscheme) (List.all_eq_true.mp hport)
      (by decide)).1.mpr (by decide)
  exact ⟨u, hread, hhost, hport, hpath⟩

/-- A pod has an address of version 6. Neither the reader of identifiers nor the one that the
    addresses of agents are read with takes the address of its target. With brackets it is read. -/
theorem exists_url_unreadable :
    let rule : Rule := { name := "a", pluginType := "prometheus", port := "9102" }
    let object : ObjectMeta := { name := "x", ns := "ns" }
    (∃ c, encodePrometheus (.ofPrefix "") "node-1" "fd00::5" .pod object (some rule) =
        .ok (some (.prometheus c)) ∧ c.url = "http://fd00::5:9102/metrics") ∧
      isVersion6 "fd00::5".toList = true ∧
      Uri.read? "http://fd00::5:9102/metrics".toList = none ∧
      (Client.Address.parse "http://fd00::5:9102/metrics").toOption = none ∧
      Uri.read? "http://[fd00::5]:9102/metrics".toList =
        some { scheme := "http".toList, host := .literal "fd00::5".toList
               port := some "9102".toList, path := "/metrics".toList } := by
  exact ⟨⟨_, rfl, by decide⟩, by decide, by decide +kernel, by decide +kernel, by decide +kernel⟩

end Encoder

end ScrapeDiscovery

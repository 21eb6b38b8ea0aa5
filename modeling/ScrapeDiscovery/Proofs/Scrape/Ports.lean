import ScrapeDiscovery.Proofs.Rule.Selection
import ScrapeDiscovery.Proofs.Scrape.Address
import ScrapeDiscovery.Proofs.Text.Canonical
import ScrapeDiscovery.Proofs.Text.Gaps

/-!
# The ports of targets that rules claim by their images

A rule with a port claims a pod if the first container with a matching image exposes the
number that the port of the rule is read as. The configuration of the target then has the
port as the rule spells it. So it names the port of the container, but as `+8080` or `08080`
where the rule says so. It has the number as it is written exactly if the rule does.

Results:
* `ResourceFilter.exists_container`: what the images and the port of a rule ask for.
* `fillTemplate_eq`: the configuration of an input is a text with gaps for the port.
* `port_canonical_iff`: when the port of a target is spelled as numbers are written.
-/

namespace ScrapeDiscovery

/-! ## Rules with a port -/

namespace ResourceFilter

/-- A rule with patterns of images and a port matches a resource by the first container whose image
    matches: it exposes the port. -/
theorem exists_container {rule : Rule} {f : ResourceFilter} {r : Resource}
    (hport : rule.port ≠ "") (himages : rule.selectors.images ≠ []) (hf : compile rule = .ok f)
    (hmatch : f.isMatch r = true) :
    ∃ images c n, GlobSet.compileAll rule.selectors.images = .ok images ∧
      r.containers.find? (fun c => images.isMatch c.image) = some c ∧ n ∈ c.ports ∧
      f.port = some n ∧ Text.parseInt .int32 rule.port = .ok n := by
  obtain ⟨-, hi, -, -, -, hp⟩ := compile_eq_ok_iff.mp hf
  obtain ⟨-, images, hall, hsome⟩ :=
    (GlobSet.compile_eq_ok_iff.mp hi).resolve_left fun h => himages h.1
  obtain ⟨-, n, hread, hn⟩ := (compilePort_eq_ok_iff.mp hp).resolve_left fun h => hport h.1
  rw [isMatch, Bool.and_eq_true, hsome, hn] at hmatch
  have hcontainers : matchesContainers images (some n) r.containers = true := hmatch.2
  rw [matchesContainers] at hcontainers
  cases hfind : r.containers.find? fun c => images.isMatch c.image with
  | none =>
    rw [hfind] at hcontainers
    cases hcontainers
  | some c =>
    rw [hfind] at hcontainers
    exact ⟨images, c, n, hall, hfind, List.contains_iff_mem.mp hcontainers, hn, hread⟩

end ResourceFilter

/-! ## The port in an address -/

theorem AnnotationKeys.address_port {keys : AnnotationKeys} {object : ObjectMeta} {rule : Rule}
    (hport : rule.port ≠ "") (hplain : (object.annotations.get? (keys.key "port")).getD "" = "") :
    (keys.address object (some rule)).port = rule.port := by
  have hsetting : setting object (some (keys.key "port")) rule.port "" = rule.port :=
    (setting_of_plain hplain _ _).trans (if_neg hport)
  rw [address, Option.getD_some, hsetting, Encoder.targetPort]
  simp [hport]

/-- The port can be told from the address of a target. -/
theorem ScrapeAddress.url_port_inj {a : ScrapeAddress} {ip p q : String} (hp : p ≠ "")
    (hq : q ≠ "") :
    ({ a with port := p } : ScrapeAddress).url ip = ({ a with port := q } : ScrapeAddress).url ip ↔
      p = q := by
  simp only [url, if_neg hp, if_neg hq, String.append_left_inj, String.append_right_inj]

/-! ## The port in a template -/

/-- Whether a template has a place for the port, on its own or as a part of the server. -/
def NamesPort (template : String) : Prop :=
  "$\x7bserver\x7d".toList <:+: template.toList ∨ "$\x7bport\x7d".toList <:+: template.toList

/-- A template with gaps where the port will be. -/
def portGaps (template scheme host : String) : List (Option Char) :=
  let server := (scheme ++ "://" ++ host ++ ":").toList.map some ++ [none]
  Text.replaceEach ("$\x7bport\x7d".toList.map some) [none]
    (Text.replaceEach ("$\x7bhost\x7d".toList.map some) (host.toList.map some)
      (Text.replaceEach ("$\x7bserver\x7d".toList.map some) server (template.toList.map some)))

/-- Whether a text is made of digits and signs. -/
def IsNumeric (p : String) : Prop := p ≠ "" ∧ ∀ c ∈ p.toList, c.isDigit = true ∨ c = '+' ∨ c = '-'

theorem IsNumeric.toList_ne_nil {p : String} (hp : IsNumeric p) : p.toList ≠ [] := fun h =>
  hp.1 (String.toList_eq_nil_iff.mp h)

theorem isNumeric_of_parseInt {range : Text.IntRange} {s : String} {n : Int}
    (h : Text.parseInt range s = .ok n) : IsNumeric s := by
  obtain ⟨sign, zeros, hspelled, hsign⟩ := Text.exists_spelling h
  refine ⟨?_, fun c hc => ?_⟩
  · rintro rfl
    cases h
  · rw [hspelled, List.mem_append, List.mem_append] at hc
    rcases hc with (hc | hc) | hc
    · rcases hsign with ⟨rfl, -⟩ | ⟨rfl | rfl, -⟩
      · exact Or.inr (Or.inr (List.mem_singleton.mp hc))
      · exact absurd hc List.not_mem_nil
      · exact Or.inr (Or.inl (List.mem_singleton.mp hc))
    · rw [List.eq_of_mem_replicate hc]
      exact Or.inl rfl
    · exact Or.inl (Text.all_toDigits (by decide) n.natAbs c hc)

/-- Nothing that is replaced in a template has a character of a port. -/
theorem IsNumeric.not_mem {p : String} (hp : IsNumeric p) {part : List Char}
    (hpart : (part.all fun c => !c.isDigit && c ≠ '+' && c ≠ '-') = true) :
    ∀ c ∈ p.toList, c ∉ part := by
  intro c hc hmem
  have hnot := List.all_eq_true.mp hpart c hmem
  simp only [Bool.and_eq_true, Bool.not_eq_true', decide_eq_true_iff] at hnot
  rcases hp.2 c hc with h | h | h
  · exact absurd (hnot.1.1.symm.trans h) Bool.false_ne_true
  · exact hnot.1.2 h
  · exact hnot.2 h

theorem replaceText_fill {p : String} (hp : IsNumeric p) {part : String} (hne : part.toList ≠ [])
    (hpart : (part.toList.all fun c => !c.isDigit && c ≠ '+' && c ≠ '-') = true)
    (replacement g : List (Option Char)) :
    Text.replaceText part (String.ofList (Text.fill p.toList replacement))
        (String.ofList (Text.fill p.toList g)) =
      String.ofList
        (Text.fill p.toList (Text.replaceEach (part.toList.map some) replacement g)) := by
  rw [Text.replaceText, String.toList_ofList, String.toList_ofList, Text.replaceAll_eq hne,
    Text.fill_replaceEach hne hp.toList_ne_nil (hp.not_mem hpart)]

/-- Filling in a template is filling the gaps for the port. -/
theorem fillTemplate_eq {p : String} (hp : IsNumeric p) (template scheme host : String) :
    fillTemplate template scheme host p =
      String.ofList (Text.fill p.toList (portGaps template scheme host)) := by
  have hplain : ∀ s : String, s = String.ofList (Text.fill p.toList (s.toList.map some)) := by
    intro s
    rw [Text.fill_map_some, String.ofList_toList]
  have hserver : scheme ++ "://" ++ host ++ ":" ++ p = String.ofList (Text.fill p.toList
      ((scheme ++ "://" ++ host ++ ":").toList.map some ++ [none])) := by
    rw [Text.fill_append, Text.fill_map_some, Text.fill_none, Text.fill_nil, List.append_nil,
      String.ofList_append, String.ofList_toList, String.ofList_toList]
  have hport : p = String.ofList (Text.fill p.toList [none]) := by
    rw [Text.fill_none, Text.fill_nil, List.append_nil, String.ofList_toList]
  calc
    fillTemplate template scheme host p
      = Text.replaceText "$\x7bport\x7d" (String.ofList (Text.fill p.toList [none]))
          (Text.replaceText "$\x7bhost\x7d"
            (String.ofList (Text.fill p.toList (host.toList.map some)))
            (Text.replaceText "$\x7bserver\x7d"
              (String.ofList (Text.fill p.toList
                ((scheme ++ "://" ++ host ++ ":").toList.map some ++ [none])))
              (String.ofList (Text.fill p.toList (template.toList.map some))))) := by
        rw [← hserver, ← hplain host, ← hplain template, ← hport]
        rfl
    _ = String.ofList (Text.fill p.toList (portGaps template scheme host)) := by
        rw [replaceText_fill hp (by decide) (by decide),
          replaceText_fill hp (by decide) (by decide),
          replaceText_fill hp (by decide) (by decide)]
        rfl

/-- A template that names the port has a gap for it. -/
theorem none_mem_portGaps {template : String} (h : NamesPort template) (scheme host : String) :
    none ∈ portGaps template scheme host := by
  have hgap : ∀ {part : List Char} {replacement g : List (Option Char)}, none ∈ g →
      none ∈ Text.replaceEach (part.map some) replacement g := fun hg =>
    Text.mem_replaceEach (by simp) hg
  rcases h with hserver | hport
  · refine hgap (hgap ?_)
    exact (Text.replacement_infix_replaceEach (by decide) (hserver.map some)).subset
      (List.mem_append_right _ (List.mem_singleton_self _))
  · -- no place for the port is lost when the others are filled
    let port := "\x7bport\x7d".toList.map some
    have hstays : ∀ {xs replacement g : List (Option Char)}, some '$' ∉ xs →
        ¬some '$' :: port <+: some '$' :: xs → ¬some '$' :: xs <+: some '$' :: port →
        some '$' :: port <:+: g →
        some '$' :: port <:+: Text.replaceEach (some '$' :: xs) replacement g :=
      Text.infix_replaceEach (by decide)
    exact (Text.replacement_infix_replaceEach (by decide)
      (hstays (by decide) (by decide) (by decide)
        (hstays (by decide) (by decide) (by decide) (hport.map some)))).subset
      (List.mem_singleton_self _)

/-- The port can be told from what was filled into a template that names it. -/
theorem fillTemplate_port_inj {template : String} (h : NamesPort template) {p q : String}
    (hp : IsNumeric p) (hq : IsNumeric q) (scheme host : String) :
    fillTemplate template scheme host p = fillTemplate template scheme host q ↔ p = q := by
  rw [fillTemplate_eq hp, fillTemplate_eq hq, String.ofList_inj,
    Text.fill_inj (none_mem_portGaps h scheme host), String.toList_inj]

/-! ## The port of a target -/

namespace Encoder

theorem conf_of_encodeTelegraf {defaults : TelegrafDefaults} {ip : String} {kind : ResourceKind}
    {object : ObjectMeta} {rule : Rule} {c : TelegrafConfig} (hport : rule.port ≠ "")
    (h : encodeTelegraf defaults ip kind object (some rule) = some (.telegraf c)) :
    c.conf = fillTemplate (setting object none (Text.trimText rule.conf) defaults.conf)
      (setting object none rule.scheme defaults.scheme) ip rule.port := by
  have hsetting : setting object none rule.port defaults.port = rule.port :=
    (setting_none object _ _).trans (if_neg hport)
  obtain ⟨r, c', hr, hc, -, -, hconf, -⟩ := encodeTelegraf_eq_some h
  obtain rfl := Option.some.inj hr
  obtain rfl := ScrapeConfig.telegraf.inj hc
  rw [hconf, hsetting]

/-- Let a rule with a port and with patterns of images match a pod. It does so because the first
    container whose image matches exposes a number that the port of the rule is read as. Every
    configuration of the target has the port as the rule spells it, unless an annotation of the
    pod overrides it: the address of a prometheus target, and the configuration of an input in
    all the places that its template has for the port. What is there is the number as it is
    written exactly if the rule has no plus sign, no leading zeros and no minus sign before zero. -/
theorem port_canonical_iff {rule : Rule} {f : ResourceFilter} {r : Resource}
    (hport : rule.port ≠ "") (himages : rule.selectors.images ≠ [])
    (hf : ResourceFilter.compile rule = .ok f) (hmatch : f.isMatch r = true) :
    ∃ images c n, GlobSet.compileAll rule.selectors.images = .ok images ∧
      r.containers.find? (fun c => images.isMatch c.image) = some c ∧ n ∈ c.ports ∧
      f.port = some n ∧ Text.parseInt .int32 rule.port = .ok n ∧
      (∀ keys nodeName t, (r.object.annotations.get? (keys.key "port")).getD "" = "" →
        (prometheus keys nodeName).encode r.ip r.kind r.object (some rule) =
          .ok (some (.prometheus t)) →
        let a := keys.address r.object (some rule)
        t.url = ({ a with port := rule.port } : ScrapeAddress).url r.ip ∧
          (t.url = ({ a with port := toString n } : ScrapeAddress).url r.ip ↔
            Text.isCanonical rule.port.toList = true)) ∧
      ∀ defaults t, (telegraf defaults).encode r.ip r.kind r.object (some rule) =
          .ok (some (.telegraf t)) →
        let template := setting r.object none (Text.trimText rule.conf) defaults.conf
        let scheme := setting r.object none rule.scheme defaults.scheme
        t.conf = fillTemplate template scheme r.ip rule.port ∧
          (NamesPort template →
            (t.conf = fillTemplate template scheme r.ip (toString n) ↔
              Text.isCanonical rule.port.toList = true)) := by
  obtain ⟨images, c, n, hall, hfind, hexposed, hn, hread⟩ :=
    ResourceFilter.exists_container hport himages hf hmatch
  have hcanonical := Text.eq_toString_iff hread
  have hspelled : IsNumeric rule.port := isNumeric_of_parseInt hread
  have hbounds := Text.readInt_bounds (by decide) (by decide) hread
  have hwritten : IsNumeric (toString n) :=
    isNumeric_of_parseInt (Text.parseInt_toString hbounds.1 hbounds.2)
  refine ⟨images, c, n, hall, hfind, hexposed, hn, hread, fun keys nodeName t hplain hencode => ?_,
    fun defaults t hencode => ?_⟩
  · intro a
    have hurl : t.url = ({ a with port := rule.port } : ScrapeAddress).url r.ip := by
      rw [url_of_encodePrometheus hencode, ← AnnotationKeys.address_port hport hplain]
    exact ⟨hurl, by rw [hurl, ScrapeAddress.url_port_inj hport hwritten.1, hcanonical]⟩
  · intro template scheme
    have hconf := conf_of_encodeTelegraf hport (Except.ok.inj hencode)
    refine ⟨hconf, fun hnames => ?_⟩
    rw [hconf, fillTemplate_port_inj hnames hspelled hwritten, hcanonical]

/-- A rule for the first container of an app. -/
def appRule (pluginType port : String) : Rule :=
  { name := "a", pluginType, selectors := { images := ["app*"] }, port }

/-- The selectors of a rule for an app with port 8080. -/
def appFilter : ResourceFilter where
  kind := .pod
  images := some ⟨[⟨[.exactly 'a', .exactly 'p', .exactly 'p', .anyRun]⟩]⟩
  namespaces := none
  labels := none
  port := some 8080

/-- A pod with an app that exposes port 8080. -/
def appPod : Resource :=
  { kind := .pod, ip := "10.0.0.7", object := { name := "x", ns := "ns" }
    containers := [{ image := "app:1", ports := [8080] }] }

/-- With the port as it is written, the address of the prometheus target and the server of the
    input have the number that the pod exposes. -/
theorem port_of_canonical_rule :
    (∀ type ∈ ["prometheus", "telegraf/redis"],
        ResourceFilter.compile (appRule type "8080") = .ok appFilter) ∧
      appFilter.isMatch appPod = true ∧
      (∃ t, (prometheus (.ofPrefix "") "node-1").encode appPod.ip appPod.kind appPod.object
          (some (appRule "prometheus" "8080")) = .ok (some (.prometheus t)) ∧
        t.url = ({ scheme := "http", port := toString (8080 : Int), path := "/metrics" } :
          ScrapeAddress).url appPod.ip) ∧
      ∃ t, (telegraf .redis).encode appPod.ip appPod.kind appPod.object
          (some (appRule "telegraf/redis" "8080")) = .ok (some (.telegraf t)) ∧
        t.conf = fillTemplate TelegrafDefaults.redis.conf "tcp" appPod.ip
          (toString (8080 : Int)) := by
  have hf : ∀ type ∈ ["prometheus", "telegraf/redis"],
      ResourceFilter.compile (appRule type "8080") = .ok appFilter := by decide +kernel
  have hmatch : appFilter.isMatch appPod = true := by decide +kernel
  have hcanonical : Text.isCanonical "8080".toList = true := by decide
  refine ⟨hf, hmatch, ⟨_, rfl, ?_⟩, ⟨_, rfl, ?_⟩⟩
  · obtain ⟨images, c, n, -, -, -, -, hread, haddress, -⟩ :=
      port_canonical_iff (by decide) (by decide) (hf "prometheus" (by decide)) hmatch
    have hn : n = 8080 := (Except.ok.inj hread).symm
    subst hn
    exact (haddress (.ofPrefix "") "node-1" _ rfl rfl).2.mpr hcanonical
  · obtain ⟨images, c, n, -, -, -, -, hread, -, hconf⟩ :=
      port_canonical_iff (by decide) (by decide) (hf "telegraf/redis" (by decide)) hmatch
    have hn : n = 8080 := (Except.ok.inj hread).symm
    subst hn
    have hnames : NamesPort TelegrafDefaults.redis.conf := Or.inl (by decide)
    exact ((hconf .redis _ rfl).2 hnames).mpr hcanonical

/-- With a plus sign before the port a rule claims what it claims without, but the address of the
    prometheus target and the server of the input have the sign before the number that the pod
    exposes. -/
theorem exists_port_not_canonical :
    (∀ type ∈ ["prometheus", "telegraf/redis"],
        ResourceFilter.compile (appRule type "+8080") = .ok appFilter) ∧
      appFilter.isMatch appPod = true ∧ appFilter.port = some 8080 ∧
      (∃ t, (prometheus (.ofPrefix "") "node-1").encode appPod.ip appPod.kind appPod.object
          (some (appRule "prometheus" "+8080")) = .ok (some (.prometheus t)) ∧
        t.url = "http://10.0.0.7:+8080/metrics" ∧
        t.url ≠ ({ scheme := "http", port := toString (8080 : Int), path := "/metrics" } :
          ScrapeAddress).url appPod.ip) ∧
      ∃ t, (telegraf .redis).encode appPod.ip appPod.kind appPod.object
          (some (appRule "telegraf/redis" "+8080")) = .ok (some (.telegraf t)) ∧
        t.conf = "servers = [\"tcp://10.0.0.7:+8080\"]\n" ∧
        t.conf ≠ fillTemplate TelegrafDefaults.redis.conf "tcp" appPod.ip
          (toString (8080 : Int)) := by
  exact ⟨by decide +kernel, by decide +kernel, rfl, ⟨_, rfl, by decide +kernel, by decide +kernel⟩,
    ⟨_, rfl, by decide +kernel, by decide +kernel⟩⟩

end Encoder

end ScrapeDiscovery

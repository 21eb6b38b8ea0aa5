import ScrapeDiscovery.Proofs.Client.Hosts
import ScrapeDiscovery.Proofs.Scrape.Ports
import ScrapeDiscovery.Proofs.Text.Places

/-!
# The templates of inputs

The configuration of an input is a template with places for the server, the host and the port.
What is meant is one pass over the template. The encoder fills in all places for the server
first, then those for the host and last those for the port, and each time it goes over what it
has filled in before. An address of a host or a port never has a place in it and never completes
one. The scheme of a rule is any text, though, and comes right at the beginning of the server. If
it has a place for the host or the port in it, or completes one that the template leaves open,
that is filled in as well.

Results:
* `fillTemplate_eq_passes`: the encoder makes a pass for each place.
* `fillTemplate_eq_iff`: when the passes come to the same as a single one.
* `not_completesPlace`: no scheme without a closing brace makes a difference.
* `Encoder.conf_eq_iff`: this for every rule with a port, every resource and every address.
* `Encoder.exists_conf_ne`: a scheme with a place in it.
-/

namespace ScrapeDiscovery

open Text (Place fillPlaces)

/-! ## Places of templates -/

/-- The place for the server, which is filled with the scheme, the host and the port. -/
def serverPlace (scheme host port : String) : Place where
  name := "server".toList
  value := (scheme ++ "://" ++ host ++ ":" ++ port).toList
  isAlpha := by decide

/-- The place for the host. -/
def hostPlace (host : String) : Place where
  name := "host".toList
  value := host.toList
  isAlpha := by decide

/-- The place for the port. -/
def portPlace (port : String) : Place where
  name := "port".toList
  value := port.toList
  isAlpha := by decide

/-- A template with its places filled in one pass from left to right. -/
def fillOnce (template scheme host port : String) : String :=
  String.ofList (fillPlaces [serverPlace scheme host port, hostPlace host, portPlace port]
    template.toList)

/-- Whether, where the server is to be put in, a place for the host or for the port ends in the
    scheme that is put in there. The place begins in the scheme or before it. -/
def CompletesPlace (template scheme : String) : Prop :=
  ∃ before after, template.toList = before ++ ("$\x7bserver\x7d".toList ++ after) ∧
    ∃ part ∈ ["$\x7bhost\x7d", "$\x7bport\x7d"], ∃ front back,
      before ++ scheme.toList = front ++ (part.toList ++ back) ∧
        back.length < scheme.toList.length

theorem completesPlace_iff {template scheme : String} (host port : String) :
    CompletesPlace template scheme ↔
      (serverPlace scheme host port).Completes [hostPlace host, portPlace port] scheme.toList
        template.toList := by
  have hparts : ∀ before,
      (∃ part ∈ ["$\x7bhost\x7d", "$\x7bport\x7d"], ∃ front back,
          before ++ scheme.toList = front ++ (part.toList ++ back) ∧
            back.length < scheme.toList.length) ↔
        ∃ q ∈ [hostPlace host, portPlace port], q.EndsIn before scheme.toList := by
    intro before
    simp only [List.exists_mem_cons_iff, List.not_mem_nil, false_and, exists_false, or_false]
    exact Iff.rfl
  simp only [CompletesPlace, hparts]
  exact Iff.rfl

/-- Places end with a brace, so that a scheme without one completes none. -/
theorem not_completesPlace {scheme : String} (h : '\x7d' ∉ scheme.toList) (template : String) :
    ¬CompletesPlace template scheme := by
  rintro ⟨before, after, -, part, hpart, front, back, heq, hback⟩
  have hlasts : ∀ part ∈ ["$\x7bhost\x7d", "$\x7bport\x7d"],
      part.toList.getLast? = some '\x7d' := by decide
  have hlast := hlasts part hpart
  rw [← List.append_assoc] at heq
  rcases List.append_eq_append_iff.mp heq with ⟨rest, hrest, hscheme⟩ | ⟨rest, -, rfl⟩
  · have hbrace : (before ++ rest).getLast? = some '\x7d' := by
      rw [← hrest, List.getLast?_append, hlast, Option.some_or]
    cases hlastRest : rest.getLast? with
    | none =>
      obtain rfl := List.getLast?_eq_none_iff.mp hlastRest
      rw [hscheme, List.nil_append] at hback
      exact absurd hback (Nat.lt_irrefl _)
    | some c =>
      rw [List.getLast?_append, hlastRest, Option.some_or, Option.some.injEq] at hbrace
      refine h ?_
      rw [hscheme, ← hbrace]
      exact List.mem_append_left _ (List.mem_of_getLast? hlastRest)
  · rw [List.length_append] at hback
    omega

/-! ## Passes over a template -/

/-- The encoder goes over the template once for each place. -/
theorem fillTemplate_eq_passes (template scheme host port : String) :
    fillTemplate template scheme host port =
      String.ofList (fillPlaces [portPlace port] (fillPlaces [hostPlace host]
        (fillPlaces [serverPlace scheme host port] template.toList))) := by
  have hpass : ∀ (p : Place) (part value s : String), part.toList = p.text →
      value.toList = p.value →
        Text.replaceText part value s = String.ofList (fillPlaces [p] s.toList) := by
    intro p part value s hpart hvalue
    have hne : p.text ≠ [] := List.cons_ne_nil _ _
    rw [Text.replaceText, hpart, hvalue, Text.replaceAll_eq hne, Text.replaceEach_text]
  rw [fillTemplate, hpass (serverPlace scheme host port) _ _ _ rfl rfl,
    hpass (hostPlace host) _ _ _ rfl rfl, hpass (portPlace port) _ _ _ rfl rfl,
    String.toList_ofList, String.toList_ofList]

/-- Whether a text is an IP address of version 4 or 6. -/
def IsAddress (ip : String) : Prop :=
  Client.Host.isDottedQuad ip.toList = true ∨ Client.Host.isVersion6 ip.toList = true

instance (ip : String) : Decidable (IsAddress ip) := inferInstanceAs (Decidable (_ ∨ _))

section Address

variable {ip : String}

theorem IsAddress.isHexDigit_or (h : IsAddress ip) :
    ∀ c ∈ ip.toList, (Text.digitValue 16 c).isSome = true ∨ c = '.' ∨ c = ':' := by
  rcases h with h | h
  · intro c hc
    rcases Client.Host.isDigit_or_dot_of_isDottedQuad h c hc with hdigit | hdot
    · exact Or.inl (Text.isSome_digitValue_of_isDigit hdigit)
    · exact Or.inr (Or.inl hdot)
  · exact Client.Host.isHexDigit_or_of_isVersion6 h

/-- No address has any other character. -/
theorem IsAddress.not_mem (h : IsAddress ip) {c : Char}
    (hc : (!(Text.digitValue 16 c).isSome && c ≠ '.' && c ≠ ':') = true) : c ∉ ip.toList := by
  intro hmem
  simp only [Bool.and_eq_true, Bool.not_eq_true', decide_eq_true_iff] at hc
  rcases h.isHexDigit_or c hmem with hdigit | hdot | hcolon
  · exact absurd (hc.1.1.symm.trans hdigit) Bool.false_ne_true
  · exact hc.1.2 hdot
  · exact hc.2 hcolon

theorem IsAddress.exists_cons (h : IsAddress ip) : ∃ c cs, ip.toList = c :: cs := by
  refine List.exists_cons_of_ne_nil fun hempty => ?_
  rw [IsAddress, hempty] at h
  exact absurd h (by decide)

theorem IsAddress.hasAddress (h : IsAddress ip) : hasAddress ip = true := by
  rw [ScrapeDiscovery.hasAddress, Bool.and_eq_true, decide_eq_true_iff, decide_eq_true_iff]
  constructor
  · rintro rfl
    exact absurd h (by decide)
  · rintro rfl
    exact absurd h (by decide)

end Address

/-- The host and the port may be filled in together: no address of a host completes the place for
    the port. -/
theorem fillPlaces_host_port {host port : String} (hhost : IsAddress host)
    (hport : '$' ∉ port.toList) (xs : List Char) :
    fillPlaces [portPlace port] (fillPlaces [hostPlace host] xs) =
      fillPlaces [hostPlace host, portPlace port] xs := by
  obtain ⟨c, cs, hcs⟩ := hhost.exists_cons
  have hdollar : '$' ∉ c :: cs := hcs ▸ hhost.not_mem (by decide)
  have hbody : (portPlace port).body.all
      (fun c => !(Text.digitValue 16 c).isSome && c ≠ '.' && c ≠ ':') = true := by
    show ('\x7b' :: ("port".toList ++ ['\x7d'])).all _ = true
    decide +kernel
  have hc : c ∉ (portPlace port).body := fun hmem =>
    hhost.not_mem (List.all_eq_true.mp hbody c hmem) (hcs ▸ List.mem_cons_self)
  have hvalue : (hostPlace host).value = [] ++ c :: cs := hcs
  refine (Text.fillPlaces_fillPlaces_iff hvalue hdollar (List.forall_mem_singleton.mpr hc)
    (List.forall_mem_singleton.mpr hport) xs).mpr ?_
  rintro ⟨before, after, -, q, -, front, back, -, hback⟩
  exact Nat.not_lt_zero _ hback

/-- With an address for the host and no dollar sign in the port, the passes for the places come to
    the same as one exactly if the scheme completes no place. -/
theorem fillTemplate_eq_iff {host port : String} (hhost : IsAddress host)
    (hport : '$' ∉ port.toList) (template scheme : String) :
    fillTemplate template scheme host port = fillOnce template scheme host port ↔
      ¬CompletesPlace template scheme := by
  have hvalue : (serverPlace scheme host port).value =
      scheme.toList ++ ':' :: ("//".toList ++ (host.toList ++ ':' :: port.toList)) := by
    show (scheme ++ "://" ++ host ++ ":" ++ port).toList = _
    simp only [String.toList_append, List.append_assoc]
    rfl
  have hdollar : '$' ∉ ':' :: ("//".toList ++ (host.toList ++ ':' :: port.toList)) := by
    have hip : '$' ∉ host.toList := hhost.not_mem (by decide)
    simp [hip, hport]
  have hvalues : ∀ q ∈ [hostPlace host, portPlace port], '$' ∉ q.value :=
    List.forall_mem_cons.mpr ⟨hhost.not_mem (by decide), List.forall_mem_singleton.mpr hport⟩
  rw [fillTemplate_eq_passes, fillPlaces_host_port hhost hport, fillOnce, String.ofList_inj,
    completesPlace_iff host port]
  exact Text.fillPlaces_fillPlaces_iff hvalue hdollar
    (fun q _ => Place.not_mem_body (by decide) q) hvalues template.toList

/-! ## The configurations of inputs -/

/-- Every plugin type of inputs has an encoder of inputs. -/
theorem exists_defaults {annotationPrefix nodeName pluginType : String}
    (htype : Family.ofPluginType pluginType = .ok .telegraf) :
    ∃ defaults ∈ [TelegrafDefaults.generic, .redis, .memcached],
      (EncoderTable.standard annotationPrefix nodeName).resolve pluginType =
        .ok (.telegraf defaults) := by
  rw [EncoderTable.resolve, EncoderTable.get?_standard_encoders]
  split_ifs with hmemcached hredis hprometheus
  · exact ⟨.memcached, by decide, rfl⟩
  · exact ⟨.redis, by decide, rfl⟩
  · rw [hprometheus] at htype
    cases htype
  · exact ⟨.generic, by decide, by rw [htype]⟩

/-- What is accepted as a port is a number. -/
theorem dollar_not_mem_port {rule : Rule} {port : Option Int} {defaults : TelegrafDefaults}
    (hport : ResourceFilter.compilePort rule = .ok port)
    (hdefaults : defaults ∈ [TelegrafDefaults.generic, .redis, .memcached]) :
    '$' ∉ (if rule.port = "" then defaults.port else rule.port).toList := by
  rcases ResourceFilter.compilePort_eq_ok_iff.mp hport with ⟨hempty, -⟩ | ⟨hne, n, hread, -⟩
  · rw [if_pos hempty]
    revert defaults
    decide
  · rw [if_neg hne]
    exact fun hmem => (isNumeric_of_parseInt hread).not_mem (by decide) '$' hmem
      (List.mem_singleton_self _)

namespace Encoder

/-- Let a rule for inputs have a port that can be selected by. A resource with an IP address is
    always encoded, and the configuration is the template of the rule, or else that of the encoder,
    filled in. It is the template filled in at one pass exactly if the scheme completes no place for
    the host or the port. -/
theorem conf_eq_iff (annotationPrefix nodeName : String) {ip : String} {rule : Rule}
    {port : Option Int} (htype : Family.ofPluginType rule.pluginType = .ok .telegraf)
    (hport : ResourceFilter.compilePort rule = .ok port) (hip : IsAddress ip)
    (kind : ResourceKind) (object : ObjectMeta) :
    ∃ defaults c,
      (EncoderTable.standard annotationPrefix nodeName).resolve rule.pluginType =
        .ok (telegraf defaults) ∧
      (telegraf defaults).encode ip kind object (some rule) = .ok (some (.telegraf c)) ∧
      let conf := Text.trimText rule.conf
      let template := if conf = "" then defaults.conf else conf
      let scheme := if rule.scheme = "" then defaults.scheme else rule.scheme
      let port := if rule.port = "" then defaults.port else rule.port
      c.conf = fillTemplate template scheme ip port ∧
        (c.conf = fillOnce template scheme ip port ↔ ¬CompletesPlace template scheme) := by
  obtain ⟨defaults, hdefaults, hresolve⟩ := exists_defaults htype
  obtain ⟨config, hencode⟩ : ∃ config,
      encodeTelegraf defaults ip kind object (some rule) = some config := by
    rw [encodeTelegraf, hip.hasAddress]
    exact ⟨_, rfl⟩
  obtain ⟨r, c, hr, rfl, -, -, hconf, -⟩ := encodeTelegraf_eq_some hencode
  obtain rfl := Option.some.inj hr
  rw [setting_none, setting_none, setting_none] at hconf
  refine ⟨defaults, c, hresolve, congrArg Except.ok hencode, hconf, ?_⟩
  rw [hconf]
  exact fillTemplate_eq_iff hip (dollar_not_mem_port hport hdefaults) _ _

/-- A rule for inputs of nginx, which names no scheme. -/
def nginxRule : Rule where
  name := "nginx"
  pluginType := "telegraf/nginx"
  port := "8080"
  conf := "urls = [\"$\x7bserver\x7d/status\"]\nport = $\x7bport\x7d"

/-- With the scheme of the encoder all is filled in at one pass. -/
theorem conf_of_nginxRule :
    Family.ofPluginType nginxRule.pluginType = .ok .telegraf ∧
      ResourceFilter.compilePort nginxRule = .ok (some 8080) ∧ IsAddress "10.0.0.9" ∧
      ∃ c, (telegraf .generic).encode "10.0.0.9" .pod { name := "nginx-0" } (some nginxRule) =
          .ok (some (.telegraf c)) ∧
        c.conf = fillOnce nginxRule.conf "http" "10.0.0.9" "8080" ∧
        c.conf = "urls = [\"http://10.0.0.9:8080/status\"]\nport = 8080" := by
  have htype : Family.ofPluginType nginxRule.pluginType = .ok .telegraf := by decide +kernel
  have hport : ResourceFilter.compilePort nginxRule = .ok (some 8080) := by decide +kernel
  have hip : IsAddress "10.0.0.9" := by decide +kernel
  obtain ⟨defaults, c, hresolve, hencode, -, honce⟩ :=
    conf_eq_iff "" "node-1" htype hport hip .pod { name := "nginx-0" }
  have hdefaults : .generic = defaults := by
    cases hresolve
    rfl
  subst hdefaults
  have hconf : c.conf = fillOnce nginxRule.conf "http" "10.0.0.9" "8080" :=
    honce.mpr (not_completesPlace (by decide) _)
  exact ⟨htype, hport, hip, c, hencode, hconf, hconf.trans (by decide +kernel)⟩

/-- If the scheme of a rule has a place for the host in it, that is filled in after it was put into
    the template. And a dollar sign in the template makes a place of the scheme, which is filled in
    then. -/
theorem exists_conf_ne :
    let rule : Rule := { name := "r", pluginType := "telegraf/redis", scheme := "$\x7bhost\x7d" }
    let rule' : Rule := { name := "r", pluginType := "telegraf/redis", scheme := "\x7bhost\x7d",
                          conf := "$$\x7bserver\x7d" }
    IsAddress "10.0.0.7" ∧
      (∀ r ∈ [rule, rule'], Family.ofPluginType r.pluginType = .ok .telegraf ∧
        ResourceFilter.compilePort r = .ok none) ∧
      (∃ c, (telegraf .redis).encode "10.0.0.7" .pod { name := "x" } (some rule) =
          .ok (some (.telegraf c)) ∧
        c.conf = "servers = [\"10.0.0.7://10.0.0.7:6379\"]\n" ∧
        c.conf ≠ fillOnce TelegrafDefaults.redis.conf rule.scheme "10.0.0.7" "6379") ∧
      ∃ c, (telegraf .redis).encode "10.0.0.7" .pod { name := "x" } (some rule') =
          .ok (some (.telegraf c)) ∧
        c.conf = "10.0.0.7://10.0.0.7:6379" ∧
        c.conf ≠ fillOnce rule'.conf rule'.scheme "10.0.0.7" "6379" := by
  exact ⟨by decide +kernel, by decide +kernel, ⟨_, rfl, by decide +kernel, by decide +kernel⟩,
    ⟨_, rfl, by decide +kernel, by decide +kernel⟩⟩

end Encoder

end ScrapeDiscovery

import Mathlib.Tactic.Common
import ScrapeDiscovery.Agent.Api
import ScrapeDiscovery.Client.Command
import ScrapeDiscovery.Proofs.Rule.Documents

/-!
# What a client makes of the answers of an agent

The agent writes its targets, its rules, its status and its health in its own records, and
the client reads them into records of its own. Each record is written with the members that
the reader looks for, where a message may be missing, and counts and times have 64 bits on
both sides. A configuration has no numbers and is not nested deeply, so the
client keeps it as it is, with its members in order.

Results:
* `Client.TargetView.ofJson?_toJson`, `Client.RuleView.ofJson?_toJson`,
  `Client.StatusView.ofJson?_status`, `Client.HealthView.ofJson?_toJson`: each record is read
  as it was written.
* `TargetSummary.namespaceTag_seen`, `TargetSummary.discovered_seen`,
  `TargetSummary.endpoint_seen_of_prometheus`, `TargetSummary.endpoint_seen_of_telegraf`:
  what is shown of a configuration.
* `Agent.answers_taken`: every answer is taken for what the agent holds.
-/

namespace ScrapeDiscovery

/-! ## Counts and collections -/

/-- Whether a number is counted in 64 bits. -/
def IsCount (n : Nat) : Prop := n < 18446744073709551616

instance (n : Nat) : Decidable (IsCount n) := Nat.decLt n _

namespace Client

theorem count?_nat {n : Nat} (hn : IsCount n) : count? (.nat n) = some n := by
  have hhi : (n : Int) ≤ 18446744073709551615 := by
    unfold IsCount at hn
    omega
  have hread : (Json.int n).int? .nat64 = some n := Json.int?_int (Int.natCast_nonneg n) hhi
  show ((Json.int n).int? .nat64).map Int.toNat = some n
  rw [hread]
  rfl

section Collections

variable {α β : Type} {read : Json → Option β} {write : α → Json} {view : α → β}

theorem items?_list {xs : List α} (h : ∀ x ∈ xs, read (write x) = some (view x)) :
    items? read (.list (xs.map write)) = some (xs.map view) :=
  mapM_map_eq_some h

theorem map?_ofMap {m : KeyMap α} (h : ∀ v ∈ m.values, read (write v) = some (view v)) :
    map? read (.ofMap (m.map write)) = some (m.map view) := by
  have hentries : (m.toList.map fun e => (e.1, write e.2)).mapM
      (fun e : String × Json => (read e.2).map (e.1, ·)) = some (m.map view).toList := by
    refine mapM_map_eq_some fun e he => ?_
    rw [h e.2 (List.mem_map_of_mem he)]
    rfl
  rw [Json.ofMap, KeyMap.map, map?, hentries, Option.map_some, KeyMap.ofList_toList]

end Collections

end Client

/-! ## Targets -/

/-- A target as it is seen: with its configuration in canonical form. -/
def TargetSummary.seen (t : TargetSummary) : Client.TargetView where
  name := t.name
  rule := t.rule
  pluginType := t.pluginType
  config := t.config.toJson.canonical

theorem Collection.depth_toJson_le (c : Collection) : c.toJson.depth ≤ 1 := by
  refine Json.depth_object_le (n := 0) ?_
  obtain ⟨interval, timeout⟩ := c
  cases interval <;> cases timeout <;> simp [Duration.toJson?, Json.optionalText, Json.depth]

theorem MetricFilters.depth_toJson_le (f : MetricFilters) : f.toJson.depth ≤ 3 := by
  have htexts (xs : List String) : (Json.texts xs).depth ≤ 2 :=
    Nat.le_trans (Json.depth_texts_le xs) (by decide)
  refine Json.depth_object_le (n := 2) ?_
  simp [htexts, Json.depth_ofTextLists_le]

theorem HttpClient.depth_toJson_le (h : HttpClient) : h.toJson.depth ≤ 3 := by
  show 2 ≤ 3
  decide

/-- A configuration is not nested deeply. -/
theorem ScrapeConfig.depth_toJson_le (c : ScrapeConfig) : c.toJson.depth ≤ 4 := by
  have htext (s : String) : (Json.text s).depth ≤ 3 := Nat.zero_le 3
  have hbool (b : Bool) : (Json.bool b).depth ≤ 3 := Nat.zero_le 3
  have htexts (xs : List String) : (Json.texts xs).depth ≤ 3 :=
    Nat.le_trans (Json.depth_texts_le xs) (by decide)
  have htags (m : KeyMap String) : (Json.ofTexts m).depth ≤ 3 :=
    Nat.le_trans (Json.depth_ofTexts_le m) (by decide)
  have hcollection (c : Collection) : c.toJson.depth ≤ 3 :=
    Nat.le_trans c.depth_toJson_le (by decide)
  cases c with
  | prometheus c =>
    refine Json.depth_object_le (n := 3) ?_
    simp [htext, hbool, htags, hcollection, MetricFilters.depth_toJson_le,
      HttpClient.depth_toJson_le]
  | telegraf c =>
    refine Json.depth_object_le (n := 3) ?_
    simp [htext, hbool, htexts, htags, hcollection, MetricFilters.depth_toJson_le]

/-- A configuration is written without numbers. -/
theorem ScrapeConfig.everyNumber_toJson {p : String → Prop} (c : ScrapeConfig) :
    c.toJson.EveryNumber p := by
  cases c with
  | prometheus c =>
    simp [toJson, HttpClient.toJson, TlsSettings.toJson, Json.everyNumber_object,
      Json.everyNumber_ofTexts, MetricFilters.everyNumber_toJson, Collection.everyNumber_toJson]
  | telegraf c =>
    simp [toJson, Json.everyNumber_object, Json.everyNumber_texts, Json.everyNumber_ofTexts,
      MetricFilters.everyNumber_toJson, Collection.everyNumber_toJson]

namespace Client.TargetView

theorem config?_toJson (c : ScrapeConfig) : config? c.toJson = some c.toJson.canonical := by
  have hdepth : c.toJson.depth + 2 ≤ depthLimit :=
    Nat.le_trans (Nat.add_le_add_right c.depth_toJson_le 2) (by decide)
  rw [config?, if_pos hdepth, Json.settleNumbers?_of_hasNoNumbers c.everyNumber_toJson]
  rfl

theorem ofJson?_toJson (t : TargetSummary) : ofJson? t.toJson = some t.seen := by
  have hfields : fields? ["name", "rule", "plugin_type", "config"] t.toJson =
      some [some (.text t.name), some (.text t.rule), some (.text t.pluginType),
        some t.config.toJson] := by
    simp [fields?, TargetSummary.toJson, uniqueMember?, membersNamed]
  rw [ofJson?, hfields]
  exact congrArg (Option.map _) (config?_toJson t.config)

end Client.TargetView

section Seen

variable (t : TargetSummary)

/-- A member of the configuration of a target, as it is seen. -/
theorem TargetSummary.get?_seen (name : String) :
    t.seen.config.get? name =
      (KeyMap.find? name t.config.toJson.members).map Json.canonical := by
  obtain ⟨_, _, _, config⟩ := t
  cases config <;> exact Json.get?_canonical (by simp) name

theorem TargetSummary.namespaceTag_seen :
    t.seen.namespaceTag = (t.config.tags.get? "namespace").getD "" := by
  have htags : t.seen.config.get? "tags" = some (.ofTexts t.config.tags) := by
    rw [get?_seen, ← Json.canonical_ofTexts]
    cases t.config <;>
      simp [ScrapeConfig.toJson, ScrapeConfig.tags, Json.members, KeyMap.find?]
  rw [Client.TargetView.namespaceTag, htags, Option.bind_some, Json.ofTexts, Json.get?_ofMap,
    KeyMap.get?_map]
  cases t.config.tags.get? "namespace" <;> rfl

theorem TargetSummary.discovered_seen : t.seen.discovered = t.config.origin.name := by
  rw [Client.TargetView.discovered, Client.TargetView.configText?, get?_seen]
  cases t.config <;>
    simp [ScrapeConfig.toJson, ScrapeConfig.origin, Json.members, KeyMap.find?, Json.canonical,
      Json.text?]

theorem TargetSummary.endpoint_seen_of_prometheus {c : PrometheusConfig}
    (hc : t.config = .prometheus c) : t.seen.endpoint = c.url := by
  rw [Client.TargetView.endpoint, Client.TargetView.configText?, get?_seen, hc]
  simp [ScrapeConfig.toJson, Json.members, KeyMap.find?, Json.canonical, Json.text?]

theorem TargetSummary.endpoint_seen_of_telegraf {c : TelegrafConfig}
    (hc : t.config = .telegraf c) : t.seen.endpoint = ",".intercalate c.plugins := by
  have hurl : t.seen.configText? "url" = none := by
    rw [Client.TargetView.configText?, get?_seen, hc]
    simp [ScrapeConfig.toJson, Json.members, KeyMap.find?]
  have hplugins : t.seen.config.get? "plugins" = some (.texts c.plugins) := by
    rw [get?_seen, hc, ← Json.canonical_texts]
    simp [ScrapeConfig.toJson, Json.members, KeyMap.find?]
  have htexts : (c.plugins.map Json.text).filterMap Json.text? = c.plugins := by
    rw [List.filterMap_map]
    exact List.filterMap_some
  rw [Client.TargetView.endpoint, hurl, hplugins]
  exact congrArg (",".intercalate ·) htexts

end Seen

/-! ## Rules -/

/-- A rule as it is seen. -/
def RuleSummary.seen (r : RuleSummary) : Client.RuleView where
  name := r.name
  pluginType := r.pluginType
  resourceType := r.kind.name
  targets := r.targets

theorem Client.RuleView.ofJson?_toJson {r : RuleSummary}
    (hr : IsCount r.targets) : ofJson? r.toJson = some r.seen := by
  have hfields : fields? ["name", "plugin_type", "resource_type", "targets"] r.toJson =
      some [some (.text r.name), some (.text r.pluginType), some (.text r.kind.name),
        some (.nat r.targets)] := by
    simp [fields?, RuleSummary.toJson, uniqueMember?, membersNamed]
  rw [ofJson?, hfields]
  simp only [count?_nat hr]
  rfl

/-! ## Health -/

/-- The report of a part as it is seen. -/
def ComponentHealth.seen (c : ComponentHealth) : Client.ComponentView where
  status := c.status.name
  message := c.message
  checkedAt := c.checkedAt

/-- The health of an agent as it is seen. -/
def HealthBoard.seen (b : HealthBoard) : Client.HealthView where
  status := b.status.name
  components := b.components.map ComponentHealth.seen

/-- Whether a time is counted in 64 bits. -/
def IsTimestamp (n : Int) : Prop := Text.IntRange.int64.lo ≤ n ∧ n ≤ Text.IntRange.int64.hi

instance (n : Int) : Decidable (IsTimestamp n) := instDecidableAnd

theorem Client.ComponentView.ofJson?_toJson {c : ComponentHealth} (hc : IsTimestamp c.checkedAt) :
    ofJson? c.toJson = some c.seen := by
  have hfields : fields? ["status", "message", "last_check_timestamp"] c.toJson =
      some [some (.text c.status.name), c.message.map .text, some (.int c.checkedAt)] := by
    obtain ⟨status, message, checkedAt⟩ := c
    cases message <;> simp [fields?, ComponentHealth.toJson, uniqueMember?, membersNamed]
  have hmessage : optionalText? ((c.message.map Json.text).getD .null) = some c.message := by
    cases c.message <;> rfl
  rw [ofJson?, hfields]
  simp only [hmessage, Json.int?_int hc.1 hc.2]
  rfl

theorem Client.HealthView.ofJson?_toJson {b : HealthBoard}
    (hb : ∀ c ∈ b.components.values, IsTimestamp c.checkedAt) :
    ofJson? b.toJson = some b.seen := by
  have hfields : fields? ["status", "components"] b.toJson =
      some [some (.text b.status.name),
        some (.ofMap (b.components.map ComponentHealth.toJson))] := by
    simp [fields?, HealthBoard.toJson, uniqueMember?, membersNamed]
  have hcomponents : map? ComponentView.ofJson? (.ofMap (b.components.map ComponentHealth.toJson)) =
      some (b.components.map ComponentHealth.seen) :=
    map?_ofMap fun c hc => ComponentView.ofJson?_toJson (hb c hc)
  rw [ofJson?, hfields]
  simp only [hcomponents]
  rfl

/-! ## The status -/

/-- Whether an agent counts in 64 bits: its rules, targets and sources, and the times of its
reports. -/
structure Agent.FitsWords (a : Agent) : Prop where
  held : ∀ r ∈ a.discoverer.rules, IsCount r.targets
  rules : IsCount a.discoverer.count
  targets : IsCount a.discoverer.targets.length
  sources : IsCount a.live.sources.length
  registries : ∀ n ∈ a.registryCounts.values, IsCount n
  times : ∀ c ∈ a.health.components.values, IsTimestamp c.checkedAt

/-- The status of an agent as it is seen. -/
def Agent.seenStatus (a : Agent) : Client.StatusView where
  nodeName := a.nodeName
  daemon := a.leadership.daemon
  leading := a.leadership.leading
  leader := a.leadership.leader
  rules := a.discoverer.count
  targets := a.discoverer.targets.length
  runtimeSources := a.live.sources.length
  registries := a.registryCounts

theorem Client.StatusView.ofJson?_status {a : Agent} (ha : a.FitsWords) :
    ofJson? a.status = some a.seenStatus := by
  have hfields : fields? ["node_name", "daemon", "leading", "leader", "rules", "targets",
      "runtime_sources", "registries"] a.status =
      some [some (.text a.nodeName), some (.bool a.leadership.daemon),
        some (.bool a.leadership.leading), some (.text a.leadership.leader),
        some (.nat a.discoverer.count), some (.nat a.discoverer.targets.length),
        some (.nat a.live.sources.length), some (.ofMap (a.registryCounts.map Json.nat))] := by
    simp [fields?, Agent.status, uniqueMember?, membersNamed]
  have hregistries : map? count? (.ofMap (a.registryCounts.map Json.nat)) =
      some (a.registryCounts.map id) :=
    map?_ofMap fun n hn => count?_nat (ha.registries n hn)
  have hid : a.registryCounts.map id = a.registryCounts :=
    KeyMap.ext_get? fun k => by rw [KeyMap.get?_map, Option.map_id, id]
  rw [hid] at hregistries
  rw [ofJson?, hfields]
  simp only [count?_nat ha.rules, count?_nat ha.targets, count?_nat ha.sources, hregistries]
  rfl

/-! ## Answers -/

theorem TargetSummary.isIntegral_toJson (t : TargetSummary) : t.toJson.IsIntegral := by
  simp [toJson, Json.everyNumber_object, ScrapeConfig.everyNumber_toJson]

theorem RuleSummary.isIntegral_toJson (r : RuleSummary) : r.toJson.IsIntegral := by
  simp [toJson, Json.everyNumber_object, Json.isIntegral_nat]

theorem Agent.isIntegral_status (a : Agent) : a.status.IsIntegral := by
  have hregistries : (Json.ofMap (a.registryCounts.map Json.nat)).IsIntegral :=
    Json.everyNumber_ofMap fun n _ => Json.isIntegral_nat n
  simp [status, Json.everyNumber_object, Json.isIntegral_nat, hregistries]

theorem ComponentHealth.isIntegral_toJson (c : ComponentHealth) : c.toJson.IsIntegral := by
  obtain ⟨status, message, checkedAt⟩ := c
  cases message <;> simp [toJson, Json.everyNumber_object, Json.isIntegral_int]

theorem HealthBoard.isIntegral_toJson (b : HealthBoard) : b.toJson.IsIntegral := by
  have hcomponents : (Json.ofMap (b.components.map ComponentHealth.toJson)).IsIntegral :=
    Json.everyNumber_ofMap fun c _ => c.isIntegral_toJson
  simp [toJson, Json.everyNumber_object, hcomponents]

/-- Whether a command takes an answer for `value`: the answer is sent with a status that the
command can use, and its content is read as `value`, be it as it is or from its line. -/
def Client.Takes {α : Type} (c : Client.Command) (read : Json → Option α) (r : Response)
    (value : α) : Prop :=
  r.isSent = true ∧ c.accepts r.code = true ∧
    ∃ j, r.content = .json j ∧ read j = some value ∧ (Json.parse j.compact).bind read = some value

theorem Client.takes_json {α : Type} {c : Client.Command} {read : Json → Option α} {value : α}
    {code : Nat} {j : Json} (hcode : c.accepts code = true) (hj : j.IsIntegral)
    (hread : read j = some value) : Takes c read { code, content := .json j } value :=
  ⟨rfl, hcode, j, rfl, hread, by rw [Json.parse_compact hj, Option.bind_some, hread]⟩

namespace Agent

/-- The answer to a request for what is at an endpoint. -/
theorem respond_get {a : Agent} {now : Int} {target : String} {e : Endpoint}
    (he : Endpoint.ofPath? (splitTarget target).1 = some e) :
    (a.respond now "GET" target).1 =
      { (if e = .alive then a.checkLeadership now else a).answer e (splitTarget target).2 with
        isSent := true } := by
  simp only [respond, he]
  rfl

theorem takes_targets {a : Agent} {now : Int} {target : String} {q : TargetQuery}
    (hpath : (splitTarget target).1 = "/api/v1/targets")
    (hq : TargetQuery.parse (splitTarget target).2 = .ok q) (pluginType ns : Option String) :
    Client.Takes (.targets pluginType ns) (Client.items? Client.TargetView.ofJson?)
      (a.respond now "GET" target).1
      ((a.discoverer.targets.filter q.accepts).map TargetSummary.seen) := by
  have hserved : (Json.list ((a.discoverer.targets.filter q.accepts).map
      TargetSummary.toJson)).IsIntegral := by
    refine Json.everyNumber_list.mpr fun j hj => ?_
    obtain ⟨t, -, rfl⟩ := List.mem_map.mp hj
    exact t.isIntegral_toJson
  rw [respond_get (e := .targets) (by rw [hpath]; rfl), if_neg (by decide), answer,
    targetsResponse, hq]
  exact Client.takes_json rfl hserved
    (Client.items?_list fun t _ => Client.TargetView.ofJson?_toJson t)

theorem takes_rules {a : Agent} (ha : a.FitsWords) {now : Int} {target : String}
    (hpath : (splitTarget target).1 = "/api/v1/rules") :
    Client.Takes .rules (Client.items? Client.RuleView.ofJson?) (a.respond now "GET" target).1
      (a.discoverer.rules.map RuleSummary.seen) := by
  have hserved : (Json.list (a.discoverer.rules.map RuleSummary.toJson)).IsIntegral := by
    refine Json.everyNumber_list.mpr fun j hj => ?_
    obtain ⟨r, -, rfl⟩ := List.mem_map.mp hj
    exact r.isIntegral_toJson
  rw [respond_get (e := .rules) (by rw [hpath]; rfl), if_neg (by decide), answer]
  exact Client.takes_json rfl hserved
    (Client.items?_list fun r hr => Client.RuleView.ofJson?_toJson (ha.held r hr))

theorem takes_status {a : Agent} (ha : a.FitsWords) {now : Int} {target : String}
    (hpath : (splitTarget target).1 = "/api/v1/status") :
    Client.Takes .status Client.StatusView.ofJson? (a.respond now "GET" target).1
      a.seenStatus := by
  rw [respond_get (e := .status) (by rw [hpath]; rfl), if_neg (by decide), answer]
  exact Client.takes_json rfl a.isIntegral_status (Client.StatusView.ofJson?_status ha)

/-- The times of the reports still fit after leadership was looked up. -/
theorem times_checkLeadership {a : Agent} (ha : a.FitsWords) {now : Int} (hnow : IsTimestamp now) :
    ∀ c ∈ (a.checkLeadership now).health.components.values, IsTimestamp c.checkedAt := by
  intro c hc
  obtain ⟨name, hname⟩ := KeyMap.mem_values_iff.mp hc
  rcases KeyMap.get?_insert_eq_some hname with ⟨-, rfl⟩ | ⟨-, hold⟩
  · have hchecked : (ComponentHealth.ofLeadership a.leadership now).checkedAt = now := by
      unfold ComponentHealth.ofLeadership
      split_ifs <;> rfl
    rw [hchecked]
    exact hnow
  · exact ha.times c (KeyMap.mem_values_iff.mpr ⟨name, hold⟩)

theorem takes_health {a : Agent} (ha : a.FitsWords) {now : Int} (hnow : IsTimestamp now)
    {target : String} (hpath : (splitTarget target).1 = "/healthz") :
    Client.Takes .health Client.HealthView.ofJson? (a.respond now "GET" target).1
      (a.checkLeadership now).health.seen := by
  rw [respond_get (e := .alive) (by rw [hpath]; rfl), if_pos rfl, answer]
  refine Client.takes_json ?_ (HealthBoard.isIntegral_toJson _)
    (Client.HealthView.ofJson?_toJson (times_checkLeadership ha hnow))
  split_ifs <;> rfl

/-- The command line reads what an agent serves: the targets asked for, the rules, the status
and the health, the last with either of its statuses, with every field as the agent has it.
A query that cannot be understood is answered by no JSON at all. Of each target that was
read, the namespace is the one among the tags, the origin that of the configuration, and the
endpoint the address or the plugins. -/
theorem answers_taken (a : Agent) (now : Int) (ha : a.FitsWords) (hnow : IsTimestamp now) :
    (∀ target, (splitTarget target).1 = "/api/v1/targets" →
      match TargetQuery.parse (splitTarget target).2 with
      | .ok q => ∀ pluginType ns,
        Client.Takes (.targets pluginType ns) (Client.items? Client.TargetView.ofJson?)
          (a.respond now "GET" target).1
          ((a.discoverer.targets.filter q.accepts).map TargetSummary.seen)
      | .error _ => (a.respond now "GET" target).1.code = 400 ∧
        ∀ j, (a.respond now "GET" target).1.content ≠ .json j) ∧
    (∀ target, (splitTarget target).1 = "/api/v1/rules" →
      Client.Takes .rules (Client.items? Client.RuleView.ofJson?) (a.respond now "GET" target).1
        (a.discoverer.rules.map RuleSummary.seen)) ∧
    (∀ target, (splitTarget target).1 = "/api/v1/status" →
      Client.Takes .status Client.StatusView.ofJson? (a.respond now "GET" target).1
        a.seenStatus) ∧
    (∀ target, (splitTarget target).1 = "/healthz" →
      (a.respond now "GET" target).1.code =
        (if (a.checkLeadership now).health.status = .unhealthy then 503 else 200) ∧
      Client.Takes .health Client.HealthView.ofJson? (a.respond now "GET" target).1
        (a.checkLeadership now).health.seen) ∧
    ∀ t : TargetSummary,
      t.seen.namespaceTag = (t.config.tags.get? "namespace").getD "" ∧
      t.seen.discovered = t.config.origin.name ∧
      t.seen.endpoint =
        match t.config with
        | .prometheus c => c.url
        | .telegraf c => ",".intercalate c.plugins := by
  refine ⟨fun target hpath => ?_, fun target => takes_rules ha, fun target => takes_status ha,
    fun target hpath => ⟨?_, takes_health ha hnow hpath⟩,
    fun t => ⟨t.namespaceTag_seen, t.discovered_seen, ?_⟩⟩
  · split
    · next q hq => exact fun pluginType ns => takes_targets hpath hq pluginType ns
    · next field hq =>
      rw [respond_get (e := .targets) (by rw [hpath]; rfl), if_neg (by decide), answer,
        targetsResponse, hq]
      exact ⟨rfl, nofun⟩
  · rw [respond_get (e := .alive) (by rw [hpath]; rfl), if_pos rfl, answer]
  · split
    · next c hc => exact t.endpoint_seen_of_prometheus hc
    · next c hc => exact t.endpoint_seen_of_telegraf hc

/-- An agent that holds a target and is not well. -/
theorem answers_taken_unwell :
    let rule : Rule :=
      { name := "a", pluginType := "telegraf/redis", selectors := { images := ["redis:*"] } }
    let pod : Resource :=
      { kind := .pod, ip := "10.0.0.1", object := { name := "x", ns := "ns" }
        containers := [{ image := "redis:6", ports := [] }] }
    let a : Agent :=
      { Agent.start {} "node-1" true with
        discoverer := ((Discoverer.start {} "node-1").handleAll true [rule]).2.discover true pod
        health :=
          { components := .ofList [("discovery", ⟨.unhealthy, some "pod watch failed", 7⟩)] } }
    (a.respond 9 "GET" "/healthz").1.code = 503 ∧
      Client.Takes (.targets none (some "ns")) (Client.items? Client.TargetView.ofJson?)
        (a.respond 9 "GET" "/api/v1/targets?namespace=ns").1
        (a.discoverer.targets.map TargetSummary.seen) ∧
      a.discoverer.targets.map (·.rule) = ["a"] := by
  intro rule pod a
  have ha : a.FitsWords :=
    { held := by decide +kernel
      rules := by decide +kernel
      targets := by decide +kernel
      sources := by decide +kernel
      registries := by decide +kernel
      times := by decide +kernel }
  obtain ⟨htargets, -, -, hhealth, -⟩ := answers_taken a 9 ha (by decide)
  have hunwell : (a.checkLeadership 9).health.status = .unhealthy := by decide +kernel
  have hall : a.discoverer.targets.filter (TargetQuery.accepts { ns := some "ns" }) =
      a.discoverer.targets := by decide +kernel
  have htaken := htargets "/api/v1/targets?namespace=ns" (by decide +kernel)
  have hq : TargetQuery.parse (splitTarget "/api/v1/targets?namespace=ns").2 =
      .ok { ns := some "ns" } := by decide +kernel
  rw [hq] at htaken
  refine ⟨?_, ?_, by decide +kernel⟩
  · rw [(hhealth "/healthz" (by decide +kernel)).1, if_pos hunwell]
  · have htaken := htaken none (some "ns")
    rwa [hall] at htaken

end Agent

end ScrapeDiscovery

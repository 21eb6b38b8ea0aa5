import ScrapeDiscovery.Decimal.Layout
import ScrapeDiscovery.Decimal.Numeral
import ScrapeDiscovery.Json.Basic
import ScrapeDiscovery.KeyMap
import ScrapeDiscovery.Text.Numeral

/-!
# What an agent is told by its environment

A variable whose name begins with `DISCOVERY_`, in any case of letters, sets the
option that the rest of its name names. Its text is taken for a truth value, an
integer, a double or a text, whichever fits first, and then made into what the
option holds. An agent that is one of many, one a node, has to know its node and
its namespace; where the options do not tell, the variables `NODE_NAME` and
`POD_NAMESPACE` do.

Results:
* `ofVariables_daemon`: an agent of a node has a node and a namespace.
-/

namespace ScrapeDiscovery

/-- What the text of a variable is taken for. -/
inductive VariableValue where
  | bool (value : Bool)
  | integer (value : Int)
  | double (value : Double)
  | text (value : String)
  deriving DecidableEq, Repr

namespace VariableValue

/-- A text with its large letters made small. -/
def small (s : String) : String := String.ofList (s.toList.map Char.toLower)

/-- The value of a text: the first of a truth value, an integer of 64 bits and a double that
it is, else the text. -/
def ofText (s : String) : VariableValue :=
  if small s = "true" then .bool true
  else if small s = "false" then .bool false
  else
    match Text.parseInt .int64 s with
    | .ok n => .integer n
    | .error _ =>
      match Double.parse? s with
      | some x => .double x
      | none => .text s

/-- The value as a text. -/
def asText : VariableValue → String
  | .bool b => if b then "true" else "false"
  | .integer n => toString n
  | .double x => x.plainText
  | .text s => s

/-- Whether a word says yes or no. -/
def switch? (s : String) : Option Bool :=
  match small s with
  | "true" | "on" | "yes" => some true
  | "false" | "off" | "no" => some false
  | _ => none

/-- The value as a truth value: numbers are true unless they are zero. -/
def asBool? : VariableValue → Option Bool
  | .bool b => some b
  | .integer n => some (n ≠ 0)
  | .double x => some (!x.isZero)
  | .text s => switch? s

/-- The value as a natural number. -/
def asNat? : VariableValue → Option Nat
  | .bool b => some b.toNat
  | .integer n => if 0 ≤ n then some n.toNat else none
  | .double x => x.roundToNat?
  | .text s =>
    match switch? s with
    | some b => some b.toNat
    | none => (Text.parseInt .nat64 s).toOption.map Int.toNat

/-- The value as the number of a port. -/
def asPort? (v : VariableValue) : Option Nat := v.asNat?.filter (· ≤ 65535)

end VariableValue

/-- What an agent can be told (`AgentConfig`). -/
structure AgentOptions where
  nodeName : String := ""
  /-- The namespace of the agent itself. -/
  ownNamespace : String := ""
  apiPort : Nat := 8080
  documentPath : String := "/etc/discovery/discovery.yaml"
  /-- Whether there is one agent a node. -/
  daemon : Bool := true
  /-- Whether services and the API server are discovered. -/
  scrapeCluster : Bool := true
  leaseName : String := "discovery-agent-leader"
  deriving DecidableEq, Repr

/-- Why an agent cannot be set up. -/
inductive AgentOptionsError where
  /-- A variable does not hold what its option is. -/
  | invalid
  | noNodeName
  | noNamespace
  deriving DecidableEq, Repr

/-- The wording of a refusal. -/
def AgentOptionsError.message : AgentOptionsError → String
  | invalid => "invalid agent configuration"
  | noNodeName => "NODE_NAME must be set when running as a daemon"
  | noNamespace => "POD_NAMESPACE must be set when running as a daemon"

namespace AgentOptions

/-- What the names of the variables of an agent begin with. -/
def variablePrefix : List Char := "discovery_".toList

/-- The option that a variable names. -/
def optionName? (name : String) : Option String :=
  let cs := name.toList.map Char.toLower
  if variablePrefix.isPrefixOf cs then some (String.ofList (cs.drop variablePrefix.length))
  else none

/-- Sets one option. -/
def set? (o : AgentOptions) (name : String) (v : VariableValue) : Option AgentOptions :=
  match name with
  | "node_name" => some { o with nodeName := v.asText }
  | "namespace" => some { o with ownNamespace := v.asText }
  | "config_path" => some { o with documentPath := v.asText }
  | "lease_name" => some { o with leaseName := v.asText }
  | "api_port" => v.asPort?.map fun n => { o with apiPort := n }
  | "daemon" => v.asBool?.map fun b => { o with daemon := b }
  | "scrape_cluster" => v.asBool?.map fun b => { o with scrapeCluster := b }
  | _ => some o

/-- The options that are set, each by the last variable that names it. -/
def given (env : KeyMap String) : KeyMap String :=
  KeyMap.ofList (env.toList.filterMap fun e => (optionName? e.1).map fun name => (name, e.2))

/-- The options as far as its own variables tell (`AgentConfig::from_env`). -/
def configured? (env : KeyMap String) : Option AgentOptions :=
  (given env).toList.foldlM (fun o e => o.set? e.1 (.ofText e.2)) {}

/-- A text, or if it is empty the text of a variable, which may be missing
(`AgentConfig::from_env`). -/
def orVariable (s : String) (env : KeyMap String) (name : String) : String :=
  if s.isEmpty then (env.get? name).getD "" else s

/-- Completes the options with where the agent runs (`AgentConfig::from_env`). -/
def located (o : AgentOptions) (env : KeyMap String) : AgentOptions :=
  { o with
    nodeName := orVariable o.nodeName env "NODE_NAME"
    ownNamespace := orVariable o.ownNamespace env "POD_NAMESPACE" }

/-- Refuses an agent of a node that does not know its node or its namespace
(`AgentConfig::from_env`). Any other agent is in the default namespace unless it is told. -/
def settled (o : AgentOptions) : Except AgentOptionsError AgentOptions :=
  if o.daemon then
    if o.nodeName.isEmpty then .error .noNodeName
    else if o.ownNamespace.isEmpty then .error .noNamespace
    else .ok o
  else .ok (if o.ownNamespace.isEmpty then { o with ownNamespace := "default" } else o)

/-- The options of an environment (`AgentConfig::from_env`). -/
def ofVariables (env : KeyMap String) : Except AgentOptionsError AgentOptions :=
  match configured? env with
  | none => .error .invalid
  | some o => (o.located env).settled

/-- The options under the names of their variables. -/
def toJson (o : AgentOptions) : Json :=
  .object [("node_name", .text o.nodeName), ("namespace", .text o.ownNamespace),
    ("api_port", .nat o.apiPort), ("config_path", .text o.documentPath), ("daemon", .bool o.daemon),
    ("scrape_cluster", .bool o.scrapeCluster), ("lease_name", .text o.leaseName)]

/-- An agent of a node has a node and a namespace. -/
theorem ofVariables_daemon {env : KeyMap String} {o : AgentOptions}
    (h : ofVariables env = .ok o) (hd : o.daemon = true) :
    o.nodeName.isEmpty = false ∧ o.ownNamespace.isEmpty = false := by
  unfold ofVariables at h
  split at h
  · simp at h
  · unfold settled at h
    split at h
    · split at h
      · simp at h
      · split at h
        · simp at h
        · simp only [Except.ok.injEq] at h
          subst h
          simp_all
    · simp only [Except.ok.injEq] at h
      subst h
      split at hd <;> simp_all

end AgentOptions

end ScrapeDiscovery

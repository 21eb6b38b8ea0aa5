import ScrapeDiscovery.Client.Address
import ScrapeDiscovery.Client.Style
import ScrapeDiscovery.Client.View
import ScrapeDiscovery.Json.Parser
import ScrapeDiscovery.Json.Printer
import ScrapeDiscovery.Text.Calendar
import ScrapeDiscovery.Text.Table

/-!
# Asking an agent

A command sends one request to an agent and shows what it answers, as a table or
as JSON. An agent that is not well answers about its health with a status of its
own, which is no failure.

Results:
* `request?_path`: the endpoint takes the place of the last segment of the address.
-/

namespace ScrapeDiscovery.Client

/-! ## Commands and requests -/

/-- What an agent is asked for (`Commands`). -/
inductive Command where
  | targets (pluginType ns : Option String)
  | rules
  | status
  | health
  deriving DecidableEq, Repr

/-- How an answer is shown (`OutputFormat`). -/
inductive Format where
  | table
  | json
  deriving DecidableEq, Repr

/-- A request for what is at an address. -/
structure Request where
  address : Address
  /-- The pairs of the query. -/
  query : List (String × String) := []
  deriving DecidableEq, Repr

/-- What is asked of the host: the path and the query. -/
def Request.target (r : Request) : String :=
  if r.query.isEmpty then r.address.path else r.address.path ++ "?" ++ Text.encodeQuery r.query

/-- The answer to a request. -/
structure Reply where
  status : Nat
  body : String
  deriving DecidableEq, Repr

/-- Why a command fails. -/
inductive CommandError where
  | invalidAddress (error : AddressError)
  /-- The address has no path. -/
  | noPath
  | notSent
  | refused (status : Nat) (body : String)
  /-- The answer is not what was asked for. -/
  | unreadable
  deriving DecidableEq, Repr

/-- What a status of an answer means. -/
def statusReason : Nat → String
  | 100 => "Continue" | 101 => "Switching Protocols" | 102 => "Processing"
  | 200 => "OK" | 201 => "Created" | 202 => "Accepted" | 203 => "Non Authoritative Information"
  | 204 => "No Content" | 205 => "Reset Content" | 206 => "Partial Content" | 207 => "Multi-Status"
  | 208 => "Already Reported" | 226 => "IM Used"
  | 300 => "Multiple Choices" | 301 => "Moved Permanently" | 302 => "Found" | 303 => "See Other"
  | 304 => "Not Modified" | 305 => "Use Proxy" | 307 => "Temporary Redirect"
  | 308 => "Permanent Redirect"
  | 400 => "Bad Request" | 401 => "Unauthorized" | 402 => "Payment Required" | 403 => "Forbidden"
  | 404 => "Not Found" | 405 => "Method Not Allowed" | 406 => "Not Acceptable"
  | 407 => "Proxy Authentication Required" | 408 => "Request Timeout" | 409 => "Conflict"
  | 410 => "Gone" | 411 => "Length Required" | 412 => "Precondition Failed"
  | 413 => "Payload Too Large" | 414 => "URI Too Long" | 415 => "Unsupported Media Type"
  | 416 => "Range Not Satisfiable" | 417 => "Expectation Failed" | 418 => "I'm a teapot"
  | 421 => "Misdirected Request" | 422 => "Unprocessable Entity" | 423 => "Locked"
  | 424 => "Failed Dependency" | 426 => "Upgrade Required" | 428 => "Precondition Required"
  | 429 => "Too Many Requests" | 431 => "Request Header Fields Too Large"
  | 451 => "Unavailable For Legal Reasons"
  | 500 => "Internal Server Error" | 501 => "Not Implemented" | 502 => "Bad Gateway"
  | 503 => "Service Unavailable" | 504 => "Gateway Timeout" | 505 => "HTTP Version Not Supported"
  | 506 => "Variant Also Negotiates" | 507 => "Insufficient Storage" | 508 => "Loop Detected"
  | 510 => "Not Extended" | 511 => "Network Authentication Required"
  | _ => "<unknown status code>"

/-- The wording of a failure. -/
def CommandError.message : CommandError → String
  | .invalidAddress _ => "Invalid API URL"
  | .noPath => "Invalid path"
  | .notSent => "Failed to send request"
  | .refused status body => s!"API error ({status} " ++ statusReason status ++ "): " ++ body
  | .unreadable => "Failed to parse response"

namespace Command

/-- Where a command asks, below the address of the agent. -/
def endpoint : Command → List String
  | targets .. => ["api", "v1", "targets"]
  | rules => ["api", "v1", "rules"]
  | status => ["api", "v1", "status"]
  | health => ["healthz"]

/-- The query of a command. -/
def query : Command → List (String × String)
  | targets pluginType ns =>
    (pluginType.map (("type", ·))).toList ++ (ns.map (("namespace", ·))).toList
  | _ => []

/-- Whether a status of an answer is one that the command can use. -/
def accepts (c : Command) (status : Nat) : Bool :=
  (200 ≤ status && status < 300) || (c == health && status == 503)

/-- The request of a command to the agent at an address (`ApiClient::fetch`). -/
def request? (c : Command) (base : Address) : Option Request :=
  (base.resolve? c.endpoint).map fun address => { address, query := c.query }

/-! ## What is shown -/

/-- A list of rows, or a warning if there is none (`print_table`). -/
def tableOr (colored : Bool) (warning : String) (header : List String) (rows : List (List String)) :
    String :=
  if rows.isEmpty then Style.warning.paint colored "⚠" ++ " " ++ warning ++ "\n"
  else Text.drawTable header rows ++ "\n"

/-- Targets as a table (`list_targets`). -/
def showTargets (colored : Bool) (ts : List TargetView) : String :=
  let rows := ts.map fun t =>
    [t.name, t.rule, t.pluginType, t.namespaceTag, t.endpoint, t.discovered]
  let table := tableOr colored "No targets discovered"
    ["Name", "Rule", "Type", "Namespace", "Endpoint", "Discovered"] rows
  if ts.isEmpty then table else table ++ s!"\nTotal: {ts.length} targets\n"

/-- Rules as a table (`list_rules`). -/
def showRules (colored : Bool) (rs : List RuleView) : String :=
  tableOr colored "No rules installed" ["Rule", "Type", "Resource", "Targets"]
    (rs.map fun r => [r.name, r.pluginType, r.resourceType, toString r.targets])

/-- A line under a title. -/
def ruler (c : Char) : String := String.ofList (List.replicate 50 c)

/-- A label with blanks up to the column of values. -/
def label (s : String) : String := s ++ Text.blanks (24 - s.toList.length)

/-- The role of an agent: one that is not of a node has no rivals. -/
def role (colored : Bool) (s : StatusView) : String :=
  if !s.daemon then "cluster"
  else Style.paintStatus colored (if s.leading then "leading" else "following")

/-- The status of an agent (`show_status`). -/
def showStatus (colored : Bool) (s : StatusView) : String :=
  let title (t : String) : String := Style.bold.paint colored t
  let registries :=
    if s.registries.isEmpty then []
    else ["", title "Registries", ruler '-'] ++
      s.registries.toList.map fun e => label (e.1 ++ ":") ++ toString e.2
  let lines :=
    [title "Discovery Agent", ruler '=',
      label "Node:" ++ Style.cyan.paint colored s.nodeName,
      label "Role:" ++ role colored s,
      label "Leader:" ++ (if s.leader.isEmpty then "-" else s.leader),
      "", title "Discovery", ruler '-',
      label "Rules:" ++ toString s.rules,
      label "Targets:" ++ toString s.targets,
      label "Runtime sources:" ++ toString s.runtimeSources] ++ registries
  String.join (lines.map (· ++ "\n"))

/-- The health of an agent (`show_health`). -/
def showHealth (colored : Bool) (h : HealthView) : String :=
  let rows := h.components.toList.map fun e =>
    [e.1, Style.paintStatus colored e.2.status, e.2.message.getD "", Text.momentText e.2.checkedAt]
  "Overall: " ++ Style.paintStatus colored h.status ++ "\n\n" ++
    tableOr colored "No components registered" ["Component", "Status", "Message", "Last Check"] rows

/-- What is shown of a value that was read. -/
def present {α : Type} (format : Format) (toJson : α → Json) (table : α → String) (value : α) :
    String :=
  match format with
  | .json => (toJson value).pretty ++ "\n"
  | .table => table value

/-- What is shown of the content of an answer, if it is what was asked for. -/
def render? (c : Command) (format : Format) (colored : Bool) (j : Json) : Option String :=
  match c with
  | targets .. =>
    (items? TargetView.ofJson? j).map
      (present format (fun ts => .list (ts.map TargetView.toJson)) (showTargets colored))
  | rules =>
    (items? RuleView.ofJson? j).map
      (present format (fun rs => .list (rs.map RuleView.toJson)) (showRules colored))
  | status => (StatusView.ofJson? j).map (present format StatusView.toJson (showStatus colored))
  | health => (HealthView.ofJson? j).map (present format HealthView.toJson (showHealth colored))

/-- What a command shows of an answer (`ApiClient::fetch`). -/
def report (c : Command) (format : Format) (colored : Bool) (reply : Reply) :
    Except CommandError String :=
  if c.accepts reply.status then
    match (Json.parse reply.body).bind (c.render? format colored) with
    | some s => .ok s
    | none => .error .unreadable
  else .error (.refused reply.status reply.body)

/-! ## Running a command -/

/-- The request of a command to the agent at a written address (`ApiClient::new`). -/
def prepare (c : Command) (address : String) : Except CommandError Request :=
  match Address.parse address with
  | .error e => .error (.invalidAddress e)
  | .ok base =>
    match c.request? base with
    | none => .error .noPath
    | some r => if r.address.isHttp then .ok r else .error .notSent

/-- What came of a command: the requests that were answered, and what is shown. -/
structure Outcome where
  requests : List Request
  shown : Except CommandError String

/-- Runs a command with what answers requests: nothing where nobody can be reached. -/
def run (c : Command) (address : String) (format : Format) (colored : Bool)
    (ask : Request → Option Reply) : Outcome :=
  match c.prepare address with
  | .error e => ⟨[], .error e⟩
  | .ok r =>
    match ask r with
    | none => ⟨[], .error .notSent⟩
    | some reply => ⟨[r], c.report format colored reply⟩

/-! ## Laws -/

/-- The endpoints of commands are plain segments. -/
theorem endpoint_isPlain (c : Command) : ∀ s ∈ c.endpoint, Address.IsPlain s := by
  have h : ∀ s ∈ ["api", "v1", "targets", "rules", "status", "healthz"], Address.IsPlain s := by
    unfold Address.IsPlain
    decide +kernel
  intro s hs
  apply h
  cases c <;> simp [endpoint] at hs <;> simp [hs] <;> grind

/-- The endpoint takes the place of the last segment of the address. -/
theorem request?_path {c : Command} {base : Address} {segments : List String}
    (h : base.segments = some segments) :
    c.request? base =
      some
        { address := { base with segments := some (segments.dropLast ++ c.endpoint) }
          query := c.query } := by
  simp [request?, Address.resolve_segments h (endpoint_isPlain c)]

end Command

end ScrapeDiscovery.Client

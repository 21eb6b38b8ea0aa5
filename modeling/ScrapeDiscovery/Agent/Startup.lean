import ScrapeDiscovery.Agent.Environment
import ScrapeDiscovery.LogFilter
import ScrapeDiscovery.Settings.Document

/-!
# The start of an agent

An agent reads its options, says that it starts, reads its discovery document and
looks for its cluster, and gives up at the first of these that fails. A missing
document is no failure: the settings are then the default ones.
-/

namespace ScrapeDiscovery

/-- Why an agent does not start. -/
inductive StartupError where
  | options (error : AgentOptionsError)
  /-- The discovery document at `path` is not valid. -/
  | document (path : String)
  | noCluster
  deriving DecidableEq, Repr

/-- The wording of a failure. -/
def StartupError.message : StartupError → String
  | options e => e.message
  | document path => "loading discovery config " ++ path
  | noCluster => "creating kubernetes client"

/-- What came of the start of an agent (`main`). -/
structure Startup where
  /-- The events that were told, and by which node. -/
  log : List LogEvent := []
  nodeName : String := ""
  outcome : Except StartupError (AgentOptions × Settings)

namespace Startup

/-- The version of the agent (`AGENT_VERSION`). -/
def version : String := "0.1.0"

/-- What the agent calls itself in its log. -/
def logSource : String := "discovery_lib::observability"

/-- The settings of a document, which may be missing (`DiscoveryConfig::from_file`). -/
def settings (path : String) (document : Option String) : Except StartupError Settings :=
  match document with
  | none => .ok {}
  | some text =>
    match Settings.load text with
    | .ok s => .ok s
    | .error _ => .error (.document path)

/-- Starts an agent in an environment, with what is at the path of its document and with or without
a cluster (`main`). -/
def run (env : KeyMap String) (documentAt : String → Option String) (hasCluster : Bool) :
    Startup :=
  match AgentOptions.ofVariables env with
  | .error e => { outcome := .error (.options e) }
  | .ok o =>
    { log := [.agentStarted version o.daemon]
      nodeName := o.nodeName
      outcome :=
        match settings o.documentPath (documentAt o.documentPath) with
        | .error e => .error e
        | .ok s => if hasCluster then .ok (o, s) else .error .noCluster }

/-- The events that the filter of the environment shows. -/
def shown (s : Startup) (env : KeyMap String) : List LogEvent :=
  s.log.filter fun e => (LogFilter.asked (env.get? "RUST_LOG")).shows logSource e.level

end Startup

end ScrapeDiscovery

import ScrapeDiscovery.Duration.Basic
import ScrapeDiscovery.Glob
import ScrapeDiscovery.Text.Numeral

/-!
# Why a rule or a target is refused

Every refusal has a cause, and every cause has one wording.
-/

namespace ScrapeDiscovery

/-- Which duration of a target cannot be read. -/
inductive DurationSetting where
  | interval
  | timeout
  deriving DecidableEq, Repr

/-- The name of a duration in messages. -/
def DurationSetting.name : DurationSetting → String
  | .interval => "collection interval"
  | .timeout => "timeout"

/-- Why a resource yields no scrape configuration. -/
inductive EncodingFault where
  | invalidDuration (setting : DurationSetting) (value : String) (fault : Duration.Fault)
  /-- The settings of the rule are no settings of an HTTP client. -/
  | invalidHttpClient
  deriving DecidableEq, Repr

/-- The wording of an encoding fault. -/
def EncodingFault.message : EncodingFault → String
  | .invalidDuration setting value fault =>
    "invalid " ++ setting.name ++ " " ++ Text.quoted value ++ ": " ++ fault.message
  | .invalidHttpClient => "invalid http client conf in rule"

/-- Why no provider can be built from a scrape configuration (`SourceFactory::build`). -/
inductive BuildFault where
  | missingUrl
  | missingPlugin
  /-- The configuration belongs to another factory than the one of this name. -/
  | foreign (factory : String)
  deriving DecidableEq, Repr

/-- The wording of a build fault. -/
def BuildFault.message : BuildFault → String
  | .missingUrl => "missing prometheus url"
  | .missingPlugin => "missing telegraf plugin"
  | .foreign factory => factory ++ " cannot build this configuration"

/-- Why a rule or a target is refused (`DiscoveryError`). -/
inductive DiscoveryError where
  | invalidResourceType (name : String)
  | noSelectors (rule : String)
  | invalidPort (rule port : String) (fault : Text.NumeralError)
  | invalidGlob (pattern : String) (fault : Glob.Fault)
  | unknownPluginType (name : String)
  | unencodable (target : String) (fault : EncodingFault)
  | unbuildable (target : String) (fault : BuildFault)
  deriving DecidableEq, Repr

/-- The wording of a refusal (`DiscoveryError`). -/
def DiscoveryError.message : DiscoveryError → String
  | .invalidResourceType name => "invalid resource type: " ++ name
  | .noSelectors rule => "no selectors specified for rule " ++ rule
  | .invalidPort rule port fault =>
    "invalid port " ++ Text.quoted port ++ " for rule " ++ rule ++ ": " ++ fault.message
  | .invalidGlob pattern fault =>
    "invalid glob pattern " ++ Text.quoted pattern ++ ": " ++ fault.message
  | .unknownPluginType name => "invalid plugin type: " ++ name
  | .unencodable target fault => "unable to encode " ++ target ++ ": " ++ fault.message
  | .unbuildable target fault =>
    "failed to build provider " ++ target ++ ": " ++ fault.message

end ScrapeDiscovery

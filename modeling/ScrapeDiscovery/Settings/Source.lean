import ScrapeDiscovery.KeyMap

/-!
# Sources of rules

Objects of the cluster may carry discovery documents. They are taken up only if
an annotation says so.
-/

namespace ScrapeDiscovery

/-- An object of the cluster that may carry discovery documents (`ConfigSource`). -/
structure RuleSource where
  name : String
  annotations : KeyMap String := ∅
  /-- The documents. Each is read for itself. -/
  data : KeyMap String := ∅
  deriving DecidableEq, Repr

namespace RuleSource

/-- The annotation that makes an object a source (`DISCOVERY_CONFIG_ANNOTATION`). -/
def marker : String := "wavefront.com/discovery-config"

/-- Marks an object as a source (`ConfigSource::annotated`). -/
def annotated (s : RuleSource) : RuleSource :=
  { s with annotations := s.annotations.insert marker "true" }

/-- Whether an object is a source (`ConfigSource::is_discovery_source`). -/
def isSource (s : RuleSource) : Bool := s.annotations.get? marker == some "true"

/-- What the name of a source begins with, by the kind of its object (`source_name`). -/
def kindPrefix (kind : String) : String := kind ++ "/"

/-- The name of the source that an object of a kind is (`source_name`). Names of objects have no
`/`, so objects of different kinds never clash. -/
def nameOf (kind object : String) : String := kindPrefix kind ++ object

end RuleSource

end ScrapeDiscovery

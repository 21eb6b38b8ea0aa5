import ScrapeDiscovery.Discoverer.Install
import ScrapeDiscovery.Health
import ScrapeDiscovery.Settings.Live

/-!
# An agent

Everything that an agent knows: the rules at work with their targets, its
leadership, the settings in effect, and how it is.
-/

namespace ScrapeDiscovery

/-- The state of an agent (`AppState`). -/
structure Agent where
  /-- The node that it runs on. -/
  nodeName : String
  discoverer : Discoverer
  leadership : Leadership
  live : LiveSettings
  health : HealthBoard := {}
  /-- Whether discovery runs, as it was last made known. -/
  enabled : Bool := false
  /-- How many changes of the settings were applied. -/
  reloads : Nat := 0
  /-- The numbers of targets of the registries, as they were last made known. -/
  registered : KeyMap Nat := ∅
  deriving DecidableEq, Repr

namespace Agent

/-- An agent on a node with the settings of a document. No rule is installed yet. -/
def start (settings : Settings) (nodeName : String) (daemon : Bool) : Agent where
  nodeName
  discoverer := .start settings nodeName
  leadership := .start daemon
  live := .start settings

/-- Changes what the discoverer holds, which may depend on leadership. -/
def discovering (a : Agent) (f : Discoverer → Bool → Discoverer) : Agent :=
  { a with discoverer := f a.discoverer a.leadership.leading }

/-- Applies settings: first who may ask for itself, then the rules. Answers how many rules were
refused. -/
def applySettings (a : Agent) (s : Settings) : Nat × Agent :=
  let d := a.discoverer.setAnnotationPolicy s.annotationExcludes s.annotationsDisabled
  let (failed, d) := d.handleAll a.leadership.leading s.rules
  (failed, { a with discoverer := d })

/-- The number of targets of each registry (`Registries::all`). -/
def registryCounts (a : Agent) : KeyMap Nat := a.discoverer.roster.registries.map (·.size)

/-- Makes the numbers of targets of the registries known (`Registries::report`). -/
def reportRegistries (a : Agent) : Agent := { a with registered := a.registryCounts }

/-- The same state with nothing told yet. -/
def afresh (a : Agent) : Agent :=
  { a with
    discoverer := { a.discoverer with roster := a.discoverer.roster.afresh }
    leadership := a.leadership.afresh
    reloads := 0 }

end Agent

end ScrapeDiscovery

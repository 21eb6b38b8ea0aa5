import ScrapeDiscovery.Settings.Document
import ScrapeDiscovery.Settings.Source
import ScrapeDiscovery.Text.Search

/-!
# Settings in effect

The settings of the discovery document, and the rules that objects of the
cluster add to them. The rules of the document come first, then those of the
sources in the order of their names, and in each source in the order of its
entries. What is in effect is combined when somebody asks for it and something
was written since. A write also leaves a wakeup for whoever waits for changes;
several writes before it is taken leave one.
-/

namespace ScrapeDiscovery

/-- Settings in effect, and what they are combined from (`ConfigHandler`). -/
structure LiveSettings where
  /-- What was last handed out. -/
  combined : Settings
  /-- The settings of the discovery document. -/
  wired : Settings
  /-- The rules of each source. -/
  runtime : KeyMap (List Rule) := ∅
  /-- Whether something was written since the settings were last combined. -/
  dirty : Bool := false
  /-- Whether a wakeup waits to be taken. -/
  wakeup : Bool := false
  deriving DecidableEq, Repr

/-- Settings with the rules of sources after their own, and without the blocks of the earlier format
(`combine`). -/
def Settings.combine (wired : Settings) (runtime : KeyMap (List Rule)) : Settings where
  interval := wired.interval
  annotationPrefix := wired.annotationPrefix
  annotationExcludes := wired.annotationExcludes
  runtimeRules := wired.runtimeRules
  annotationsDisabled := wired.annotationsDisabled
  rules := wired.rules ++ runtime.values.flatten

/-- The rules of the entries of a source that can be read (`ConfigHandler::updated`). -/
def RuleSource.rules (s : RuleSource) : List Rule :=
  s.data.values.flatMap fun document => ((Settings.loadRules document).toOption).getD []

namespace LiveSettings

/-- The settings of a document and no sources (`ConfigHandler::new`). -/
def start (wired : Settings) : LiveSettings := { combined := wired, wired }

/-- The settings in effect, and whether they differ from those handed out before
(`ConfigHandler::config`). -/
def current (l : LiveSettings) : (Settings × Bool) × LiveSettings :=
  if l.dirty then
    let combined := l.wired.combine l.runtime
    ((combined, combined ≠ l.combined), { l with combined, dirty := false })
  else ((l.combined, false), l)

/-- Leaves a wakeup. -/
def wake (l : LiveSettings) : LiveSettings := { l with wakeup := true }

/-- Takes the wakeup, if there is one (`ConfigHandler::changed`). -/
def takeWakeup (l : LiveSettings) : Bool × LiveSettings := (l.wakeup, { l with wakeup := false })

/-! ## Writes -/

/-- Writes other settings of the document (`ConfigHandler::set_wired`). -/
def writeWired (l : LiveSettings) (wired : Settings) : LiveSettings :=
  { l with wired, dirty := true }

/-- Writes the rules of a source (`ConfigHandler::updated`). -/
def writeSource (l : LiveSettings) (name : String) (rules : List Rule) : LiveSettings :=
  { l with runtime := l.runtime.insert name rules, dirty := true }

/-- Removes the rules of a source (`ConfigHandler::deleted`). -/
def eraseSource (l : LiveSettings) (name : String) : LiveSettings :=
  { l with runtime := l.runtime.erase name, dirty := true }

/-- Puts other settings in the place of those of the document (`ConfigHandler::set_wired`). -/
def setWired (l : LiveSettings) (wired : Settings) : LiveSettings := (l.writeWired wired).wake

/-- Forgets a source (`ConfigHandler::deleted`). One that is not known changes nothing. -/
def delete (l : LiveSettings) (name : String) : LiveSettings :=
  if l.runtime.contains name then (l.eraseSource name).wake else l

/-- Takes up an added or changed object (`ConfigHandler::updated`). One that is not marked is no
source. -/
def update (l : LiveSettings) (s : RuleSource) : LiveSettings :=
  if s.isSource then (l.writeSource s.name s.rules).wake else l.delete s.name

/-- The names of the sources (`ConfigHandler::runtime_source_names`). -/
def sources (l : LiveSettings) : List String := l.runtime.keys

/-- The sources of a kind that a complete list of its objects does not have (`resync_sources`). -/
def vanished (l : LiveSettings) (kind : String) (present : List RuleSource) : List String :=
  l.sources.filter fun name =>
    (RuleSource.kindPrefix kind).toList.isPrefixOf name.toList &&
      !(present.map (·.name)).contains name

/-- Takes up a complete list of the objects of a kind (`resync_sources`). -/
def resync (l : LiveSettings) (kind : String) (present : List RuleSource) : LiveSettings :=
  present.foldl update ((l.vanished kind present).foldl delete l)

/-- Takes up the discovery document of a file (`reload`). If there is none that can be read, all
stays as it is. -/
def reload (l : LiveSettings) (bytes : Option (List Nat)) : LiveSettings :=
  match Settings.loadFile bytes with
  | .ok wired => l.setWired wired
  | .error _ => l

end LiveSettings

end ScrapeDiscovery

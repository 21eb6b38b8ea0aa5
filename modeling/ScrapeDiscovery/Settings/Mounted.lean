import ScrapeDiscovery.Settings.Live

/-!
# A discovery document that changes

The directory of the discovery document is watched. A change concerns the
document if it happens to the document itself or to `..data`, the link through
which mounted documents are replaced all at once. The document is then taken up
anew, if it can be read.
-/

namespace ScrapeDiscovery

/-- The name of the link through which mounted documents are replaced. -/
def mountLink : String := "..data"

/-- Whether a change of the file `changed` concerns the document (`is_relevant`). -/
def concernsDocument (document changed : String) : Bool := changed = document || changed = mountLink

/-- A watched directory with a discovery document, and the settings in effect
(`ConfigFileWatcher`). -/
structure MountedSettings where
  /-- The name of the document. -/
  document : String
  live : LiveSettings
  /-- What the mounted volume holds, where the document is a link into it. -/
  volume : Option (List Nat) := none
  /-- The contents of the document itself, where it is a file. -/
  file : Option (List Nat) := none
  /-- Whether the document is a link into the mounted volume. -/
  linked : Bool := false
  deriving DecidableEq, Repr

namespace MountedSettings

/-- What can be read under the name of the document. -/
def contents (m : MountedSettings) : Option (List Nat) := if m.linked then m.volume else m.file

/-- Reports the change of a file (`ConfigFileWatcher::start`). -/
def change (m : MountedSettings) (name : String) : MountedSettings :=
  if concernsDocument m.document name then { m with live := m.live.reload m.contents } else m

/-- Puts a file in the place of one of this name. -/
def write (m : MountedSettings) (name : String) (bytes : List Nat) : MountedSettings :=
  if name = m.document then { m with file := some bytes, linked := false }.change name
  else m.change name

/-- Removes the document. -/
def remove (m : MountedSettings) : MountedSettings :=
  { m with file := none, linked := false }.change m.document

/-- Replaces the mounted volume. -/
def swap (m : MountedSettings) (bytes : List Nat) : MountedSettings :=
  { m with volume := some bytes }.change mountLink

end MountedSettings

end ScrapeDiscovery

import ScrapeDiscovery.LogEvent
import ScrapeDiscovery.Provider
import ScrapeDiscovery.Scrape.Encoder

/-!
# Who holds which target

A handler keeps the targets of one rule, or those that ask for themselves, each
with its current encoding. Handlers of one plugin type share a registry, which
records the owner of each target name, and all handlers share the catalog of
live providers. A `Roster` is all of this together, with what was reported and
asked of the catalog so far.

A handler can be dropped without having given up its targets. Its registry then
still lists them, until somebody asks for their owner.

Results:
* `handler?_add_self`, `handler?_add_of_lt`: adding a handler adds just that one.
* `handler?_update_self`, `handler?_update_of_ne`: an update reaches one handler.
-/

namespace ScrapeDiscovery

/-- Tells the handlers of a roster apart. -/
abbrev HandlerId := Nat

/-- The targets of one rule, and how they are made (`TargetHandler`). -/
structure TargetHandler where
  /-- The name of the registry that it shares. -/
  registry : String
  /-- The family whose factory builds its providers. -/
  factory : Family
  encoder : Encoder
  /-- Whether its targets ask for themselves, so that they may also take that back. -/
  useAnnotations : Bool := false
  /-- The encodings of the targets that it holds. -/
  entries : KeyMap ScrapeConfig := ∅
  /-- Whether it refuses new targets. -/
  closed : Bool := false
  deriving DecidableEq, Repr

/-- What was asked of the catalog (`ProviderHandler`). -/
inductive ProviderCall where
  | add (name : String) (config : ScrapeConfig)
  | delete (name : String)
  deriving DecidableEq, Repr

namespace ProviderCall

/-- The name of the provider of a call. -/
def name : ProviderCall → String
  | .add name _ => name
  | .delete name => name

/-- A call as JSON: what is asked, and of which provider. -/
def toJson : ProviderCall → Json
  | .add name config => .list [.text "add", .text name, config.toJson]
  | .delete name => .list [.text "delete", .text name]

end ProviderCall

/-- How many targets could not be encoded, and how many providers not be built. -/
structure Mishaps where
  encoding : Nat := 0
  build : Nat := 0
  deriving DecidableEq, Repr, Inhabited

/-- Handlers, registries and live providers (`Registries`). -/
structure Roster where
  /-- The handlers by their number; none where a handler was dropped. -/
  handlers : List (Option TargetHandler) := []
  /-- The owners of the target names of each registry. -/
  registries : KeyMap (KeyMap HandlerId) := ∅
  catalog : Catalog := ∅
  mishaps : Mishaps := {}
  /-- The calls to the catalog so far, the latest last. -/
  calls : List ProviderCall := []
  /-- The events so far, the latest last. -/
  log : List LogEvent := []
  deriving DecidableEq, Repr, Inhabited

namespace Roster

/-! ## Handlers -/

/-- The handler of a number, unless it was dropped. -/
def handler? (r : Roster) (id : HandlerId) : Option TargetHandler := (r.handlers[id]?).join

/-- Changes one handler. -/
def update (r : Roster) (id : HandlerId) (f : TargetHandler → TargetHandler) : Roster :=
  { r with handlers := r.handlers.modify id (Option.map f) }

/-- Makes a registry unless it is there (`Registries::get_or_create`). -/
def openRegistry (r : Roster) (name : String) : Roster :=
  if r.registries.contains name then r
  else { r with registries := r.registries.insert name ∅ }

/-- The number of the next handler. -/
def nextId (r : Roster) : HandlerId := r.handlers.length

/-- Adds a handler under the next number and opens its registry (`TargetHandler::new`). -/
def add (r : Roster) (h : TargetHandler) : Roster :=
  let r := r.openRegistry h.registry
  { r with handlers := r.handlers ++ [some h] }

/-- Drops a handler with all that it holds. The registry and the catalog are not told. -/
def drop (r : Roster) (id : HandlerId) : Roster :=
  { r with handlers := r.handlers.set id none }

/-- The encodings of the targets of a handler (`TargetHandler::targets`). -/
def entries (r : Roster) (id : HandlerId) : KeyMap ScrapeConfig :=
  ((r.handler? id).map (·.entries)).getD ∅

/-- The encoding of a target of a handler (`TargetHandler::encoding`). -/
def encoding (r : Roster) (id : HandlerId) (target : String) : Option ScrapeConfig :=
  (r.entries id).get? target

/-- Whether a handler holds a target (`TargetHandler::contains`). -/
def holds (r : Roster) (id : HandlerId) (target : String) : Bool := (r.entries id).contains target

/-- The recorded owners of a registry (`TargetRegistry`). -/
def owners (r : Roster) (registry : String) : KeyMap HandlerId :=
  (r.registries.get? registry).getD ∅

/-- Reports an event (`StructuredLogger`). -/
def report (r : Roster) (e : LogEvent) : Roster := { r with log := r.log ++ [e] }

/-- The same state with nothing told yet. -/
def afresh (r : Roster) : Roster := { r with calls := [], log := [], mishaps := {} }

/-! ## The views after an operation -/

theorem openRegistry_handlers (r : Roster) (name : String) :
    (r.openRegistry name).handlers = r.handlers := by
  unfold openRegistry
  split <;> rfl

theorem handler?_add_self (r : Roster) (h : TargetHandler) :
    (r.add h).handler? r.nextId = some h := by
  simp [add, handler?, nextId, openRegistry_handlers]

theorem handler?_add_of_lt {r : Roster} {id : HandlerId} (hid : id < r.nextId)
    (h : TargetHandler) : (r.add h).handler? id = r.handler? id := by
  have hlt : id < r.handlers.length := hid
  simp [add, handler?, openRegistry_handlers, List.getElem?_append, hlt]

theorem handler?_update_self (r : Roster) (id : HandlerId) (f : TargetHandler → TargetHandler) :
    (r.update id f).handler? id = (r.handler? id).map f := by
  simp only [update, handler?, List.getElem?_modify, if_true]
  cases r.handlers[id]? <;> rfl

theorem handler?_update_of_ne {r : Roster} {id id' : HandlerId} (h : id' ≠ id)
    (f : TargetHandler → TargetHandler) : (r.update id f).handler? id' = r.handler? id' := by
  simp [update, handler?, Ne.symm h]

end Roster

end ScrapeDiscovery

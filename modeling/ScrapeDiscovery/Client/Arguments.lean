import ScrapeDiscovery.Client.Command

/-!
# The command line

The command line of `discoctl` has two levels: options for all commands, then the
name of a command with options of its own. An option takes a value, after an equals sign,
right behind its short form, or as the next argument; the value is looked at
when the next option or the end of its level is reached. The options of the
first level are settled after the command has been read.
-/

namespace ScrapeDiscovery.Client

/-! ## Refusals -/

/-- What is wrong with a command line. -/
inductive UsageError where
  | unexpectedArgument (argument : String)
  | unknownCommand (name : String)
  | missingCommand
  | missingValue (option : String)
  | invalidValue (value option : String)
  | repeatedOption (option : String)
  /-- A value for something that takes none. -/
  | unneededValue (value option : String)
  deriving DecidableEq, Repr

/-- The name of the program. -/
def programName : String := "discoctl"

/-- The version of the program. -/
def programVersion : String := "0.1.0"

namespace UsageError

/-- Quotes a word that is wrong. -/
def wrong (colored : Bool) (s : String) : String := "'" ++ Style.yellow.paint colored s ++ "'"

/-- Quotes a word as it has to be typed. -/
def literal (colored : Bool) (s : String) : String := "'" ++ Style.bold.paint colored s ++ "'"

/-- The wording of a refusal. -/
def message (colored : Bool) : UsageError → String
  | unexpectedArgument a => "unexpected argument " ++ wrong colored a ++ " found"
  | unknownCommand n => "unrecognized subcommand " ++ wrong colored n
  | missingCommand =>
    wrong colored programName ++ " requires a subcommand but one was not provided"
  | missingValue o => "a value is required for " ++ wrong colored o ++ " but none was supplied"
  | invalidValue v o => "invalid value " ++ wrong colored v ++ " for " ++ literal colored o
  | repeatedOption o => "the argument " ++ wrong colored o ++ " cannot be used multiple times"
  | unneededValue v o =>
    "unexpected value " ++ wrong colored v ++ " for " ++ literal colored o ++
      " found; no more were expected"

/-- The word in front of a refusal. -/
def label (colored : Bool) : String :=
  if colored then Style.sequence "1" ++ Style.sequence "31" ++ "error:" ++ Style.off else "error:"

end UsageError

/-! ## Levels -/

/-- An option that takes a value. -/
structure OptionSpec where
  long : String
  short : Option Char := none
  /-- What stands for the value in messages. -/
  placeholder : String
  /-- The values it takes; none of them means any. -/
  values : List String := []
  deriving DecidableEq, Repr

/-- An option as it is shown in messages. -/
def OptionSpec.shown (o : OptionSpec) : String := "--" ++ o.long ++ " <" ++ o.placeholder ++ ">"

/-- A level of the command line. -/
structure Level where
  options : List OptionSpec
  /-- The commands that lead to a level below. -/
  commands : List String := []
  /-- Whether the version can be asked for. -/
  hasVersion : Bool := false

/-- Why reading stops early: for a text that is asked for, or for a refusal. -/
inductive Stop where
  | help
  | version
  | refused (error : UsageError)
  deriving DecidableEq, Repr

/-- What has been read of a level. -/
structure Progress where
  /-- The values of options, by their long names. -/
  given : List (String × String) := []
  /-- The last option, as long as its value was not looked at, and its value once it is there. -/
  last : Option (OptionSpec × Option String) := none
  deriving DecidableEq, Repr

namespace Progress

/-- Whether the last option waits for its value. -/
def isWaiting (p : Progress) : Bool :=
  match p.last with
  | some (_, none) => true
  | _ => false

/-- Takes up the value of an option. -/
def take (p : Progress) (o : OptionSpec) (value : String) : Except Stop Progress :=
  if p.given.any (·.1 = o.long) then .error (.refused (.repeatedOption o.shown))
  else if o.values.isEmpty || o.values.contains value then
    .ok { given := p.given ++ [(o.long, value)] }
  else if value.isEmpty then .error (.refused (.missingValue o.shown))
  else .error (.refused (.invalidValue value o.shown))

/-- Looks at the value of the last option. -/
def settle (p : Progress) : Except Stop Progress :=
  match p.last with
  | none => .ok p
  | some (o, none) => .error (.refused (.missingValue o.shown))
  | some (o, some value) => { p with last := none }.take o value

/-- An option with its value, or one that waits for it. -/
def opened (p : Progress) (o : OptionSpec) (value : Option String) : Except Stop Progress := do
  let p ← p.settle
  match value with
  | some value => p.take o value
  | none => return { p with last := some (o, none) }

/-- The value of an option. -/
def value? (p : Progress) (long : String) : Option String :=
  (p.given.find? (·.1 = long)).map (·.2)

end Progress

namespace Level

/-- Reads a long option, with what follows its equals sign. -/
def readLong (l : Level) (p : Progress) (name : String) (value : Option String) :
    Except Stop Progress :=
  match l.options.find? (·.long = name) with
  | some o => p.opened o value
  | none =>
    let flag (stop : Stop) : Except Stop Progress :=
      match value with
      | some v => .error (.refused (.unneededValue v ("--" ++ name)))
      | none => do
        let _ ← p.settle
        throw stop
    if name = "help" then flag .help
    else if name = "version" && l.hasVersion then flag .version
    else .error (.refused (.unexpectedArgument ("--" ++ name)))

/-- Reads options in their short form: what follows an option is its value. -/
def readShort (l : Level) (p : Progress) : List Char → Except Stop Progress
  | [] => .ok p
  | c :: cs =>
    match l.options.find? (·.short = some c) with
    | some o =>
      match cs with
      | [] => p.opened o none
      | '=' :: cs => p.opened o (some (String.ofList cs))
      | cs => p.opened o (some (String.ofList cs))
    | none =>
      if c = 'h' then do
        let _ ← p.settle
        throw .help
      else if c = 'V' && l.hasVersion then do
        let _ ← p.settle
        throw .version
      else .error (.refused (.unexpectedArgument (String.ofList ['-', c])))

/-- What is wrong with an argument that is no option. -/
def refuse (l : Level) (escaped : Bool) (a : String) : Stop :=
  if l.commands.isEmpty || (escaped && l.commands.contains a) then .refused (.unexpectedArgument a)
  else .refused (.unknownCommand a)

/-- The parts of a long option. -/
def splitLong (cs : List Char) : String × Option String :=
  match cs.dropWhile (· ≠ '=') with
  | '=' :: value => (String.ofList (cs.takeWhile (· ≠ '=')), some (String.ofList value))
  | _ => (String.ofList cs, none)

/-- Reads a level up to a command or the end; after two dashes there are no more options. -/
def read (l : Level) : (escaped : Bool) → Progress → List String →
    Except Stop (Progress × Option (String × List String))
  | _, p, [] => .ok (p, none)
  | true, _, a :: _ => .error (l.refuse true a)
  | false, p, a :: rest =>
    if !p.isWaiting && l.commands.contains a then .ok (p, some (a, rest))
    else
      match a.toList with
      | ['-', '-'] => l.read true p rest
      | '-' :: '-' :: cs =>
        let (name, value) := splitLong cs
        match l.readLong p name value with
        | .ok p => l.read false p rest
        | .error e => .error e
      | '-' :: c :: cs =>
        match l.readShort p (c :: cs) with
        | .ok p => l.read false p rest
        | .error e => .error e
      | _ =>
        match p.last with
        | some (o, none) => l.read false { p with last := some (o, some a) } rest
        | _ => .error (l.refuse false a)

end Level

/-! ## The levels of this program -/

/-- The names of the commands that ask an agent. -/
def commandNames : List String := ["targets", "rules", "status", "health"]

/-- The options for all commands. -/
def topLevel : Level where
  options := [{ long := "api-url", placeholder := "API_URL" },
    { long := "format", short := some 'f', placeholder := "FORMAT", values := ["table", "json"] }]
  commands := commandNames ++ ["help"]
  hasVersion := true

/-- The options of a command. -/
def commandLevel (name : String) : Level where
  options :=
    if name = "targets" then
      [{ long := "type", short := some 't', placeholder := "PLUGIN_TYPE" },
        { long := "namespace", short := some 'n', placeholder := "NAMESPACE" }]
    else []

/-- A command line that asks an agent. -/
structure Invocation where
  address : String
  format : Format
  command : Command
  deriving DecidableEq, Repr

/-- The command of a name with its options. -/
def commandOf (name : String) (p : Progress) : Command :=
  match name with
  | "targets" => .targets (p.value? "type") (p.value? "namespace")
  | "rules" => .rules
  | "status" => .status
  | _ => .health

/-- Reads what follows the word for help: a text for a command, if there is one. -/
def readHelp : List String → Stop
  | [] => .help
  | name :: rest =>
    if topLevel.commands.contains name then
      match rest with
      | [] => .help
      | other :: _ => .refused (.unknownCommand other)
    else .refused (.unknownCommand name)

/-- Where the agent is asked unless it is told. -/
def defaultAddress : String := "http://localhost:8080"

/-- Reads a command line. An address that the environment tells is taken if there is none among
the arguments. -/
def Invocation.parse (told : Option String) (args : List String) : Except Stop Invocation := do
  let (top, found) ← topLevel.read false {} args
  let command ←
    match found with
    | none => pure none
    | some ("help", rest) => throw (readHelp rest)
    | some (name, rest) => do
      let (below, _) ← (commandLevel name).read false {} rest
      pure (some (commandOf name (← below.settle)))
  let top ← top.settle
  match command with
  | none => throw (.refused .missingCommand)
  | some command =>
    return {
      address := (top.value? "api-url").getD (told.getD defaultAddress)
      format := if top.value? "format" = some "json" then .json else .table
      command }

/-! ## Running a command line -/

/-- A summary of how the program is used. -/
def usage : String :=
  "CLI for the Kubernetes discovery agent\n\nUsage: discoctl [OPTIONS] <COMMAND>\n\n" ++
    "Commands:\n  targets  List discovered scrape targets\n" ++
    "  rules    List installed discovery rules\n" ++
    "  status   Show agent discovery and leadership state\n  health   Show agent component health\n"

/-- How a run of the program ends. -/
structure Ending where
  code : Nat
  output : String := ""
  complaint : String := ""
  deriving DecidableEq, Repr

/-- The end of a run that stops at its command line. -/
def Stop.ending (colored : Bool) : Stop → Ending
  | .help => { code := 0, output := usage }
  | .version => { code := 0, output := programName ++ " " ++ programVersion ++ "\n" }
  | .refused e => { code := 2, complaint := UsageError.label colored ++ " " ++ e.message colored }

/-- The end of a run of a command. -/
def endingOf : Except CommandError String → Ending
  | .ok shown => { code := 0, output := shown }
  | .error e => { code := 1, complaint := "Error: " ++ e.message }

/-- Runs a command line with what answers requests. -/
def runLine (told : Option String) (args : List String) (colored : Bool)
    (ask : Request → Option Reply) : List Request × Ending :=
  match Invocation.parse told args with
  | .error stop => ([], stop.ending colored)
  | .ok i =>
    let outcome := i.command.run i.address i.format colored ask
    (outcome.requests, endingOf outcome.shown)

end ScrapeDiscovery.Client

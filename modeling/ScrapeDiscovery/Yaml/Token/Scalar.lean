import ScrapeDiscovery.Yaml.Token.Basic
import ScrapeDiscovery.Text.Numeral

/-!
# Scalars of a YAML text

Block scalars keep or fold their lines, quoted scalars fold line ends and know
escapes, and plain scalars end where an indicator begins. In all of them a single
line end between words becomes a space, and of several line ends the first is
dropped.

The text of a scalar is collected last character first.
-/

namespace ScrapeDiscovery.Yaml

/-! ## Folding -/

/-- Line ends met between words: the first, and those after it, last one first. -/
structure Breaks where
  first : List Char
  others : List Char
  deriving DecidableEq, Repr

/-- What folded line ends add to a text that is collected backward. -/
def Breaks.fold (b : Breaks) (text : List Char) : List Char :=
  if b.first = ['\n'] then
    if b.others.isEmpty then ' ' :: text else b.others ++ text
  else b.others ++ b.first ++ text

/-- What has been read between words: blanks, last one first, or line ends. -/
inductive Between where
  | blanks (cs : List Char)
  | breaks (b : Breaks)
  deriving DecidableEq, Repr

/-- Adds what stood between words to a text that is collected backward. -/
def Between.join (b : Between) (text : List Char) : List Char :=
  match b with
  | .blanks cs => cs ++ text
  | .breaks b => b.fold text

/-- Adds a blank, which counts only as long as no line has ended. -/
def Between.pushBlank (b : Between) (c : Char) : Between :=
  match b with
  | .blanks cs => .blanks (c :: cs)
  | .breaks b => .breaks b

/-- Adds a line end, which makes blanks before it disappear. -/
def Between.pushBreak (b : Between) (c : Char) : Between :=
  match b with
  | .blanks _ => .breaks ⟨[c], []⟩
  | .breaks b => .breaks { b with others := c :: b.others }

/-! ## Plain scalars -/

/-- The flow indicators that end a plain scalar inside a flow collection. -/
def isFlowIndicator (c : Char) : Bool :=
  c == ',' || c == '[' || c == ']' || c == '\x7b' || c == '\x7d'

/-- A plain scalar that has been read. -/
structure PlainScalar where
  text : String
  cursor : Cursor
  /-- Whether a line ended after the scalar. -/
  lineEnded : Bool
  deriving DecidableEq, Repr

/-- Reads on in a plain scalar. `between` is set outside of words; it is empty at the start.
`indent` is the least column of a continuation line outside of flow collections. -/
def readPlain (inFlow : Bool) (indent : Nat) (text : List Char) (between : Option Between)
    (mark : Mark) (cs : List Char) : Except Problem PlainScalar :=
  let done : PlainScalar :=
    { text := String.ofList text.reverse, cursor := ⟨cs, mark⟩,
      lineEnded := match between with
        | some (.breaks _) => true
        | _ => false }
  match cs with
  | [] => .ok done
  | c :: rest =>
    if isBlank c then
      let between := between.getD (.blanks [])
      match between, c with
      | .breaks _, '\t' =>
        if mark.column < indent then .error .tabIndentation
        else readPlain inFlow indent text (some between) (mark.after c) rest
      | _, _ => readPlain inFlow indent text (some (between.pushBlank c)) (mark.after c) rest
    else if isBreak c then
      let between := between.getD (.blanks [])
      readPlain inFlow indent text (some (between.pushBreak c)) (mark.after c) rest
    else
      let outside := between.isSome
      if outside && !inFlow && !text.isEmpty && mark.column < indent then .ok done
      else if outside && mark.column == 0 && startsWithMarker (c :: rest) then .ok done
      else if outside && c == '#' then .ok done
      else if inFlow && c == ':' && rest.head?.any (fun x => isFlowIndicator x || x == '?') then
        .error .misplacedIndicator
      else if (c == ':' && startsWithGap rest) || (inFlow && isFlowIndicator c) then .ok done
      else
        let text := match between with
          | none => text
          | some b => b.join text
        readPlain inFlow indent (c :: text) none (mark.after c) rest

/-- Reads a plain scalar at the cursor. -/
def scanPlain (inFlow : Bool) (indent : Nat) (cursor : Cursor) : Except Problem PlainScalar :=
  readPlain inFlow indent [] (some (.blanks [])) cursor.mark cursor.rest

/-! ## Quoted scalars -/

/-- The character of an escape of one letter. -/
def escape? : Char → Option Char
  | '0' => some '\x00'
  | 'a' => some '\x07'
  | 'b' => some '\x08'
  | 't' => some '\t'
  | '\t' => some '\t'
  | 'n' => some '\n'
  | 'v' => some '\x0b'
  | 'f' => some '\x0c'
  | 'r' => some '\r'
  | 'e' => some '\x1b'
  | ' ' => some ' '
  | '"' => some '"'
  | '/' => some '/'
  | '\\' => some '\\'
  | 'N' => some '\u0085'
  | '_' => some '\u00a0'
  | 'L' => some '\u2028'
  | 'P' => some '\u2029'
  | _ => none

/-- How many hexadecimal digits follow the letter of an escape. -/
def escapeDigits? : Char → Option Nat
  | 'x' => some 2
  | 'u' => some 4
  | 'U' => some 8
  | _ => none

/-- The character of a code point that is written in `digits`. -/
def charOfHex? (digits : List Char) : Option Char := do
  let n ← digits.foldlM (fun n d => (Text.digitValue 16 d).map (n * 16 + ·)) 0
  if h : n.isValidChar then some (Char.ofNatAux n h) else none

/-- Where the reader of a quoted scalar stands. -/
inductive QuotedPlace where
  /-- In a word. -/
  | word
  /-- Between words. -/
  | between (b : Between)
  /-- After a backslash. -/
  | escape
  /-- In an escape that needs more hexadecimal digits, the last one first. -/
  | digits (missing : Nat) (read : List Char)
  /-- After a quote in a scalar between single quotes. -/
  | quote
  deriving DecidableEq, Repr

/-- Reads on in a quoted scalar up to its closing quote. -/
def readQuoted (single : Bool) (text : List Char) (place : QuotedPlace) (mark : Mark)
    (cs : List Char) : Except Problem (String × Cursor) :=
  match cs with
  | [] =>
    match place with
    | .quote => .ok (String.ofList text.reverse, ⟨[], mark⟩)
    | _ => .error .unterminated
  | c :: rest =>
    let after := mark.after c
    match place with
    | .quote =>
      if c == '\'' then readQuoted single ('\'' :: text) .word after rest
      else .ok (String.ofList text.reverse, ⟨c :: rest, mark⟩)
    | .digits missing read =>
      match missing with
      | 0 => .error .badEscape
      | missing + 1 =>
        let read := c :: read
        if (Text.digitValue 16 c).isNone then .error .badEscape
        else if missing = 0 then
          match charOfHex? read.reverse with
          | none => .error .badEscape
          | some x => readQuoted single (x :: text) .word after rest
        else readQuoted single text (.digits missing read) after rest
    | .escape =>
      if isBreak c then readQuoted single text (.between (.breaks ⟨[], []⟩)) after rest
      else
        match escape? c, escapeDigits? c with
        | some x, _ => readQuoted single (x :: text) .word after rest
        | none, some n => readQuoted single text (.digits n []) after rest
        | none, none => .error .badEscape
    | place =>
      if mark.column == 0 && startsWithMarker (c :: rest) then .error .misplacedIndicator
      else if isBlank c || isBreak c then
        let between := match place with
          | .between b => b
          | _ => .blanks []
        let between := if isBreak c then between.pushBreak c else between.pushBlank c
        readQuoted single text (.between between) after rest
      else
        let text := match place with
          | .between b => b.join text
          | _ => text
        if single then
          if c == '\'' then readQuoted single text .quote after rest
          else readQuoted single (c :: text) .word after rest
        else if c == '"' then .ok (String.ofList text.reverse, ⟨rest, after⟩)
        else if c == '\\' then readQuoted single text .escape after rest
        else readQuoted single (c :: text) .word after rest

/-- Reads a quoted scalar at its opening quote. -/
def scanQuoted (single : Bool) (cursor : Cursor) : Except Problem (String × Cursor) :=
  readQuoted single [] .word cursor.next.mark cursor.next.rest

/-! ## Block scalars -/

/-- What becomes of the line ends at the end of a block scalar. -/
inductive Chomping where
  /-- None is kept. -/
  | strip
  /-- The first is kept. -/
  | clip
  /-- All are kept. -/
  | keep
  deriving DecidableEq, Repr

/-- The header of a block scalar: what its indicators say. -/
structure BlockHeader where
  chomping : Chomping
  /-- The indentation relative to the collection around, if it is given. -/
  increment : Option Nat
  deriving DecidableEq, Repr

/-- The chomping that an indicator asks for. -/
def chomping? (c : Char) : Option Chomping :=
  if c == '+' then some .keep else if c == '-' then some .strip else none

/-- Reads the indicators after `|` or `>`. -/
def scanBlockHeader (cursor : Cursor) : Except Problem (BlockHeader × Cursor) :=
  let digit (c : Cursor) : Except Problem (Option Nat × Cursor) :=
    match c.peek? with
    | some d =>
      if '1' ≤ d && d ≤ '9' then .ok (some (d.toNat - '0'.toNat), c.next)
      else if d == '0' then .error .misplacedIndicator
      else .ok (none, c)
    | none => .ok (none, c)
  match cursor.peek?.bind chomping? with
  | some ch => do
    let (increment, cursor) ← digit cursor.next
    return (⟨ch, increment⟩, cursor)
  | none => do
    let (increment, cursor) ← digit cursor
    match increment, cursor.peek?.bind chomping? with
    | some n, some ch => return (⟨ch, some n⟩, cursor.next)
    | _, _ => return (⟨.clip, increment⟩, cursor)

/-- The blank lines before a line of a block scalar. -/
structure BlankLines where
  /-- Their line ends, last one first. -/
  breaks : List Char
  /-- The widest indentation seen. -/
  widest : Nat
  cursor : Cursor
  deriving DecidableEq, Repr

/-- Passes blank lines and the indentation of the next one. Without `indent` all spaces are
indentation. -/
def readBlankLines (indent : Option Nat) (breaks : List Char) (widest : Nat) (mark : Mark)
    (cs : List Char) : Except Problem BlankLines :=
  let inside := match indent with
    | none => true
    | some n => decide (mark.column < n)
  let widest' := max widest mark.column
  match cs with
  | [] => .ok ⟨breaks, widest', ⟨[], mark⟩⟩
  | c :: rest =>
    if inside && c == ' ' then readBlankLines indent breaks widest (mark.after c) rest
    else if inside && c == '\t' then .error .tabIndentation
    else if isBreak c then readBlankLines indent (c :: breaks) widest' (mark.after c) rest
    else .ok ⟨breaks, widest', ⟨c :: rest, mark⟩⟩

/-- A block scalar in the making, its parts last character first. -/
structure BlockText where
  text : List Char
  /-- The line end after the last line. -/
  lastBreak : List Char
  /-- The line ends of blank lines after it. -/
  blankLines : List Char
  /-- Whether the last line began with a blank. -/
  wasIndented : Bool
  deriving DecidableEq, Repr

/-- What stands before the next line of a block scalar. A folded scalar joins lines that do
not begin with a blank. -/
def BlockText.beforeLine (b : BlockText) (folded indented : Bool) : List Char :=
  if folded && b.lastBreak == ['\n'] && !b.wasIndented && !indented then
    if b.blankLines.isEmpty then ' ' :: b.text else b.blankLines ++ b.text
  else b.blankLines ++ b.lastBreak ++ b.text

/-- Reads the lines of a block scalar whose column is `indent`. -/
def readBlockLines (folded : Bool) (indent : Nat) :
    (fuel : Nat) → BlockText → Cursor → Except Problem (BlockText × Cursor)
  | 0, b, cursor => .ok (b, cursor)
  | fuel + 1, b, cursor =>
    if cursor.mark.column == indent && !cursor.rest.isEmpty then do
      let indented := cursor.isAt isBlank
      let text := b.beforeLine folded indented
      let (line, cursor) := cursor.readWhile fun c => !isBreak c
      let lastBreak := cursor.peek?.toList
      let blank ← readBlankLines (some indent) [] 0 cursor.next.mark cursor.next.rest
      readBlockLines folded indent fuel
        ⟨line.reverse ++ text, lastBreak, blank.breaks, indented⟩ blank.cursor
    else .ok (b, cursor)

/-- Reads a block scalar at its indicator; `parent` is the indentation around it, negative
outside of all collections. -/
def scanBlock (folded : Bool) (parent : Int) (cursor : Cursor) :
    Except Problem (String × Cursor) := do
  let (header, cursor) ← scanBlockHeader cursor.next
  let cursor := cursor.skipWhile isBlank
  let cursor := if cursor.isAt (· == '#') then cursor.skipWhile fun c => !isBreak c else cursor
  if !cursor.atLineEnd then throw .misplacedIndicator
  let cursor := cursor.next
  let given := header.increment.map fun n => (max parent 0).toNat + n
  let blank ← readBlankLines given [] 0 cursor.mark cursor.rest
  let indent := given.getD (max (max blank.widest (parent + 1).toNat) 1)
  let (b, cursor) ← readBlockLines folded indent (blank.cursor.rest.length + 1)
    ⟨[], [], blank.breaks, false⟩ blank.cursor
  let text := match header.chomping with
    | .strip => b.text
    | .clip => b.lastBreak ++ b.text
    | .keep => b.blankLines ++ b.lastBreak ++ b.text
  return (String.ofList text.reverse, cursor)

end ScrapeDiscovery.Yaml

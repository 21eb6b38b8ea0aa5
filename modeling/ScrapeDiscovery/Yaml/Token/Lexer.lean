import ScrapeDiscovery.Yaml.Token.Property
import ScrapeDiscovery.Yaml.Token.Scalar

/-!
# From a YAML text to its tokens

A key without a question mark is known as one only at its colon. So the place
of every scalar, alias or collection that may turn out to be a key is kept until
the line ends or 1024 characters have passed, and the `key` token is inserted
there when the colon comes.

Indentation opens and closes block collections: a token at a greater column may
open one, and a token at a smaller column closes those opened further right.
-/

namespace ScrapeDiscovery.Yaml

/-- A place where a key may have begun. -/
structure KeyPlace where
  /-- Whether what begins here can only be a key. -/
  required : Bool
  /-- How many tokens stand before it. -/
  position : Nat
  mark : Mark
  deriving DecidableEq, Repr

/-- The state of the lexer. -/
structure Lexer where
  cursor : Cursor
  /-- The tokens so far, last one first. -/
  tokens : List Token
  /-- The column of the innermost open block collection, or -1. -/
  indent : Int
  /-- The columns of those around it, innermost first. -/
  outer : List Int
  /-- Whether a key may begin here. -/
  keyAllowed : Bool
  /-- For the block context and every open flow collection, innermost first, the place where
  a key may have begun. -/
  keys : List (Option KeyPlace)
  deriving DecidableEq, Repr

namespace Lexer

/-- The lexer before a text. -/
def start (cs : List Char) : Lexer :=
  { cursor := ⟨cs, ⟨0, 0, 0⟩⟩, tokens := [], indent := -1, outer := [], keyAllowed := true,
    keys := [none] }

/-- Whether a flow collection is open. -/
def inFlow (l : Lexer) : Bool := l.keys.length > 1

/-- Adds a token. -/
def push (l : Lexer) (t : Token) : Lexer := { l with tokens := t :: l.tokens }

/-- Inserts tokens after the first `position` ones. -/
def insertAt (l : Lexer) (position : Nat) (ts : List Token) : Lexer :=
  let later := l.tokens.length - position
  { l with tokens := l.tokens.take later ++ ts.reverse ++ l.tokens.drop later }

/-- Opens a block collection at a column right of the innermost one, with its token after
the first `position` ones. -/
def openBlock (l : Lexer) (column position : Nat) (t : Token) : Lexer :=
  if !l.inFlow && l.indent < column then
    { l.insertAt position [t] with indent := column, outer := l.indent :: l.outer }
  else l

/-- Closes the block collections that are open right of `column`. -/
def closeBlocks (column : Int) : (outer : List Int) → Lexer → Lexer
  | [], l => l
  | o :: os, l =>
    if column < l.indent then
      closeBlocks column os { l.push .blockEnd with indent := o, outer := os }
    else l

/-- Closes the block collections right of `column`, unless a flow collection is open. -/
def unindent (l : Lexer) (column : Int) : Lexer :=
  if l.inFlow then l else closeBlocks column l.outer l

/-- Gives up the place of a key in the innermost context. -/
def dropKey (l : Lexer) : Except Problem Lexer :=
  match l.keys with
  | some k :: ks => if k.required then .error .unfinishedKey else .ok { l with keys := none :: ks }
  | _ => .ok l

/-- Keeps this place as one where a key may begin. -/
def saveKey (l : Lexer) : Except Problem Lexer :=
  if l.keyAllowed then do
    let l ← l.dropKey
    let key : KeyPlace :=
      ⟨!l.inFlow && l.indent == l.cursor.mark.column, l.tokens.length, l.cursor.mark⟩
    return { l with keys := some key :: l.keys.tail }
  else .ok l

/-- Gives up the places from which the text has moved on too far. -/
def dropStaleKeys (l : Lexer) : Except Problem Lexer := do
  let mark := l.cursor.mark
  let keys ← l.keys.mapM fun key =>
    match key with
    | none => Except.ok none
    | some k =>
      if k.mark.line < mark.line || k.mark.index + 1024 < mark.index then
        if k.required then .error Problem.unfinishedKey else .ok none
      else .ok (some k)
  return { l with keys }

/-- Moves the cursor. -/
def withCursor (l : Lexer) (cursor : Cursor) : Lexer := { l with cursor }

/-- Adds a token of `length` characters. -/
def take (l : Lexer) (length : Nat) (t : Token) : Lexer :=
  (l.push t).withCursor (l.cursor.skip length)

/-- Passes blanks, comments and line ends up to the next token. -/
def skipToToken : (fuel : Nat) → Lexer → Lexer
  | 0, l => l
  | fuel + 1, l =>
    let cursor :=
      if l.cursor.mark.column == 0 && l.cursor.isAt (· == '\ufeff') then l.cursor.next
      else l.cursor
    let tabs := l.inFlow || !l.keyAllowed
    let cursor := cursor.skipWhile fun c => c == ' ' || (tabs && c == '\t')
    let cursor := if cursor.isAt (· == '#') then cursor.skipWhile fun c => !isBreak c else cursor
    if cursor.isAt isBreak then
      skipToToken fuel
        { l with cursor := cursor.next, keyAllowed := l.keyAllowed || !l.inFlow }
    else { l with cursor }

/-- Ends all collections at a marker of a document or a directive. -/
def resetBlocks (l : Lexer) : Except Problem Lexer := do
  let l ← (l.unindent (-1)).dropKey
  return { l with keyAllowed := false }

/-- Begins a flow collection. -/
def openFlow (l : Lexer) (t : Token) : Except Problem Lexer := do
  let l ← l.saveKey
  return { l.take 1 t with keys := none :: l.keys, keyAllowed := true }

/-- Ends a flow collection. -/
def closeFlow (l : Lexer) (t : Token) : Except Problem Lexer := do
  let l ← l.dropKey
  let keys := if l.inFlow then l.keys.tail else l.keys
  return { l.take 1 t with keys, keyAllowed := false }

/-- Reads the comma between the items of a flow collection. -/
def flowEntry (l : Lexer) : Except Problem Lexer := do
  let l ← l.dropKey
  return { l.take 1 .flowEntry with keyAllowed := true }

/-- Reads the hyphen before the item of a block sequence. -/
def blockEntry (l : Lexer) : Except Problem Lexer := do
  if !l.inFlow && !l.keyAllowed then throw .misplacedIndicator
  let l := l.openBlock l.cursor.mark.column l.tokens.length .blockSequenceStart
  let l ← l.dropKey
  return { l.take 1 .blockEntry with keyAllowed := true }

/-- Reads the question mark before a key. -/
def keyIndicator (l : Lexer) : Except Problem Lexer := do
  if !l.inFlow && !l.keyAllowed then throw .misplacedIndicator
  let l := l.openBlock l.cursor.mark.column l.tokens.length .blockMappingStart
  let l ← l.dropKey
  return { l.take 1 .key with keyAllowed := !l.inFlow }

/-- Reads the colon after a key. -/
def valueIndicator (l : Lexer) : Except Problem Lexer := do
  match l.keys with
  | some key :: ks =>
    let l := l.insertAt key.position [.key]
    let l := l.openBlock key.mark.column key.position .blockMappingStart
    return { l.take 1 .value with keys := none :: ks, keyAllowed := false }
  | _ =>
    if !l.inFlow && !l.keyAllowed then throw .misplacedIndicator
    let l := l.openBlock l.cursor.mark.column l.tokens.length .blockMappingStart
    return { l.take 1 .value with keyAllowed := !l.inFlow }

/-- Reads an anchor or an alias. -/
def anchorOrAlias (l : Lexer) (make : String → Token) : Except Problem Lexer := do
  let l ← l.saveKey
  let (name, cursor) ← scanAnchorName l.cursor
  return { (l.push (make name)).withCursor cursor with keyAllowed := false }

/-- Reads a tag. -/
def tag (l : Lexer) : Except Problem Lexer := do
  let l ← l.saveKey
  let (token, cursor) ← scanTag l.inFlow l.cursor
  return { (l.push token).withCursor cursor with keyAllowed := false }

/-- Reads a block scalar. -/
def blockScalar (l : Lexer) (style : ScalarStyle) : Except Problem Lexer := do
  let l ← l.dropKey
  let (text, cursor) ← scanBlock (style == .folded) l.indent l.cursor
  return { (l.push (.scalar text style)).withCursor cursor with keyAllowed := true }

/-- Reads a quoted scalar. -/
def quotedScalar (l : Lexer) (style : ScalarStyle) : Except Problem Lexer := do
  let l ← l.saveKey
  let (text, cursor) ← scanQuoted (style == .singleQuoted) l.cursor
  return { (l.push (.scalar text style)).withCursor cursor with keyAllowed := false }

/-- Reads a plain scalar. -/
def plainScalar (l : Lexer) : Except Problem Lexer := do
  let l ← l.saveKey
  let p ← scanPlain l.inFlow (l.indent + 1).toNat l.cursor
  return { (l.push (.scalar p.text .plain)).withCursor p.cursor with keyAllowed := p.lineEnded }

/-- Whether a plain scalar may begin with `c` before `rest`. -/
def startsPlain (inFlow : Bool) (c : Char) (rest : List Char) : Bool :=
  !(startsWithGap [c] || "-?:,[]\x7b\x7d#&*!|>'\"%@`".toList.contains c) ||
    (c == '-' && !(rest.head?.any isBlank)) ||
    (!inFlow && (c == '?' || c == ':') && !startsWithGap rest)

/-- Reads one token at the character `c` before `rest`. -/
def token (l : Lexer) (c : Char) (rest : List Char) : Except Problem Lexer :=
  let lineStart := l.cursor.mark.column == 0
  let indicates := l.inFlow || startsWithGap rest
  if lineStart && c == '%' then do
    let l ← l.resetBlocks
    let (t, cursor) ← scanDirective l.cursor
    return (l.push t).withCursor cursor
  else if lineStart && startsWithMarker (c :: rest) then do
    let l ← l.resetBlocks
    return l.take 3 (if c == '-' then .documentStart else .documentEnd)
  else if c == '[' then l.openFlow .flowSequenceStart
  else if c == '\x7b' then l.openFlow .flowMappingStart
  else if c == ']' then l.closeFlow .flowSequenceEnd
  else if c == '\x7d' then l.closeFlow .flowMappingEnd
  else if c == ',' then l.flowEntry
  else if c == '-' && startsWithGap rest then l.blockEntry
  else if c == '?' && indicates then l.keyIndicator
  else if c == ':' && indicates then l.valueIndicator
  else if c == '*' then l.anchorOrAlias .alias
  else if c == '&' then l.anchorOrAlias .anchor
  else if c == '!' then l.tag
  else if c == '|' && !l.inFlow then l.blockScalar .literal
  else if c == '>' && !l.inFlow then l.blockScalar .folded
  else if c == '\'' then l.quotedScalar .singleQuoted
  else if c == '"' then l.quotedScalar .doubleQuoted
  else if startsPlain l.inFlow c rest then l.plainScalar
  else .error .unexpectedCharacter

/-- Reads all tokens of the rest. Every round takes at least one character, so the length of
the text bounds the rounds. -/
def run : (fuel : Nat) → Lexer → Except Problem (List Token)
  | 0, _ => .error .unexpectedCharacter
  | fuel + 1, l => do
    let l := skipToToken (l.cursor.rest.length + 1) l
    let l ← l.dropStaleKeys
    let l := l.unindent l.cursor.mark.column
    match l.cursor.rest with
    | [] =>
      let l ← (l.unindent (-1)).dropKey
      return l.tokens.reverse
    | c :: rest => run fuel (← l.token c rest)

end Lexer

/-- The tokens of a text. -/
def Token.ofText (document : String) : Except Problem (List Token) :=
  let cs := document.toList
  if cs.all isAllowed then
    let cs := uniformBreaks cs
    Lexer.run (cs.length + 1) (Lexer.start cs)
  else .error .controlCharacter

end ScrapeDiscovery.Yaml

/-!
# Places in a YAML text

A YAML text is read with its line ends made uniform: a carriage return with or
without a line feed and the next-line character become line feeds, while the two
Unicode separators stay what they are and end a line too. A `Cursor` is the rest
of the text with its place.
-/

namespace ScrapeDiscovery.Yaml

/-- Why a text is not a YAML document of the supported kind. -/
inductive Problem where
  /-- A control character. -/
  | controlCharacter
  /-- A character that begins no token. -/
  | unexpectedCharacter
  /-- An indicator in a context that has no place for it. -/
  | misplacedIndicator
  /-- A key without its colon. -/
  | unfinishedKey
  /-- A tabulation where indentation is expected. -/
  | tabIndentation
  /-- A quoted scalar or a header that does not end. -/
  | unterminated
  /-- An unknown escape or one of no character. -/
  | badEscape
  /-- A malformed or repeated directive. -/
  | badDirective
  /-- A malformed or undefined tag. -/
  | badTag
  /-- A malformed anchor or alias. -/
  | badAnchor
  /-- A token that cannot stand where it does. -/
  | unexpectedToken
  /-- An alias whose anchor has not been defined. -/
  | unknownAnchor
  /-- Collections nested too deeply. -/
  | tooDeep
  /-- Aliases that repeat too much of the document. -/
  | tooManyAliases
  /-- More than one document. -/
  | severalDocuments
  deriving DecidableEq, Repr

/-- Whether `c` ends a line. -/
def isBreak (c : Char) : Bool := c == '\n' || c == '\u2028' || c == '\u2029'

/-- Whether `c` is a space or a tabulation. -/
def isBlank (c : Char) : Bool := c == ' ' || c == '\t'

/-- Whether a YAML text may hold `c`. -/
def isAllowed (c : Char) : Bool :=
  let n := c.toNat
  n == 0x09 || n == 0x0A || n == 0x0D || (0x20 ≤ n && n ≤ 0x7E) || n == 0x85 ||
  (0xA0 ≤ n && n ≤ 0xD7FF) || (0xE000 ≤ n && n ≤ 0xFFFD) || 0x10000 ≤ n

/-- Letters, digits, the underscore and the hyphen. -/
def isWordChar (c : Char) : Bool :=
  ('a' ≤ c && c ≤ 'z') || ('A' ≤ c && c ≤ 'Z') || ('0' ≤ c && c ≤ '9') || c == '_' || c == '-'

/-- Makes every line end that is one in all texts a line feed. -/
def uniformBreaks : List Char → List Char
  | '\r' :: '\n' :: cs => '\n' :: uniformBreaks cs
  | '\r' :: cs => '\n' :: uniformBreaks cs
  | '\u0085' :: cs => '\n' :: uniformBreaks cs
  | c :: cs => c :: uniformBreaks cs
  | [] => []

/-- A place: characters read, lines read, and characters read of this line. -/
structure Mark where
  index : Nat
  line : Nat
  column : Nat
  deriving DecidableEq, Repr

/-- The place after `c`. -/
def Mark.after (m : Mark) (c : Char) : Mark :=
  if isBreak c then ⟨m.index + 1, m.line + 1, 0⟩ else ⟨m.index + 1, m.line, m.column + 1⟩

/-- The rest of a text and its place. -/
structure Cursor where
  rest : List Char
  mark : Mark
  deriving DecidableEq, Repr

namespace Cursor

/-- The character at the cursor. -/
def peek? (c : Cursor) : Option Char := c.rest.head?

/-- The cursor one character on. -/
def next (c : Cursor) : Cursor :=
  match c.rest with
  | [] => c
  | x :: xs => ⟨xs, c.mark.after x⟩

/-- The cursor `n` characters on. -/
def skip (c : Cursor) : Nat → Cursor
  | 0 => c
  | n + 1 => c.next.skip n

/-- Passes the characters that satisfy `p`. -/
def skipWhile (p : Char → Bool) (c : Cursor) : Cursor :=
  c.skip (c.rest.takeWhile p).length

/-- Reads the characters that satisfy `p`. -/
def readWhile (p : Char → Bool) (c : Cursor) : List Char × Cursor :=
  (c.rest.takeWhile p, c.skipWhile p)

/-- Whether the character at the cursor, if there is one, satisfies `p`. -/
def atEndOr (p : Char → Bool) (c : Cursor) : Bool :=
  match c.rest with
  | [] => true
  | x :: _ => p x

/-- Whether the cursor is at a blank, at a line end or at the end of the text. -/
def atGap (c : Cursor) : Bool := c.atEndOr fun x => isBlank x || isBreak x

/-- Whether the cursor is at a line end or at the end of the text. -/
def atLineEnd (c : Cursor) : Bool := c.atEndOr isBreak

/-- Whether the cursor is at a character that satisfies `p`. -/
def isAt (p : Char → Bool) (c : Cursor) : Bool := c.peek?.any p

end Cursor

/-- Whether `cs` begins with a blank, a line end or nothing. -/
def startsWithGap : List Char → Bool
  | [] => true
  | x :: _ => isBlank x || isBreak x

/-- Whether a line that begins with `cs` is the marker of a document's start or end. -/
def startsWithMarker : List Char → Bool
  | '-' :: '-' :: '-' :: cs => startsWithGap cs
  | '.' :: '.' :: '.' :: cs => startsWithGap cs
  | _ => false

end ScrapeDiscovery.Yaml

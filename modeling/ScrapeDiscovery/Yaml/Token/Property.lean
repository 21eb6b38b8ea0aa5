import ScrapeDiscovery.Yaml.Token.Basic
import ScrapeDiscovery.Text.Numeral
import ScrapeDiscovery.Text.Utf8

/-!
# Anchors, tags and directives of a YAML text
-/

namespace ScrapeDiscovery.Yaml

/-! ## Anchors and aliases -/

/-- Reads the name after `&` or `*`. It is not empty, and a blank or one of a few indicators
follows it. -/
def scanAnchorName (cursor : Cursor) : Except Problem (String × Cursor) :=
  let (name, cursor) := cursor.next.readWhile isWordChar
  let mayEnd := cursor.atGap || cursor.isAt fun c => "?:,]\x7d%@`".toList.contains c
  if name.isEmpty || !mayEnd then .error .badAnchor else .ok (String.ofList name, cursor)

/-! ## Tags -/

/-- The characters of a tag besides those of words. The flow indicators belong to a tag only
where it stands alone or between angle brackets. -/
def isTagChar (verbatim : Bool) (c : Char) : Bool :=
  isWordChar c || ";/?:@&=+$.%!~*'()".toList.contains c ||
    (verbatim && (c == ',' || c == '[' || c == ']'))

/-- The bytes that percent signs and hexadecimal digits at the start of `cs` stand for, and
what follows them. -/
def percentBytes? : List Char → Option (List Nat × List Char)
  | '%' :: a :: b :: cs => do
    let hi ← Text.digitValue 16 a
    let lo ← Text.digitValue 16 b
    match cs with
    | '%' :: _ =>
      let (bytes, rest) ← percentBytes? cs
      return ((hi * 16 + lo) :: bytes, rest)
    | _ => return ([hi * 16 + lo], cs)
  | '%' :: _ => none
  | cs => some ([], cs)

/-- The characters of a tag with its escapes resolved; every run of escapes has to be
well-formed. -/
def unescapeTag? : (fuel : Nat) → List Char → Option (List Char)
  | 0, _ => none
  | _ + 1, [] => some []
  | fuel + 1, '%' :: cs => do
    let (bytes, rest) ← percentBytes? ('%' :: cs)
    let text ← Text.decodeUtf8? bytes
    return text.toList ++ (← unescapeTag? fuel rest)
  | fuel + 1, c :: cs => (unescapeTag? fuel cs).map (c :: ·)

/-- Reads the characters of a tag after `head`, which has been read already. -/
def scanTagChars (verbatim : Bool) (head : List Char) (cursor : Cursor) :
    Except Problem (String × Cursor) :=
  let (cs, cursor) := cursor.readWhile (isTagChar verbatim)
  if head.isEmpty && cs.isEmpty then .error .badTag
  else
    match unescapeTag? (cs.length + 1) cs with
    | none => .error .badTag
    | some text => .ok (String.ofList (head.drop 1 ++ text), cursor)

/-- Reads a tag handle: an exclamation mark, or word characters between two of them. Without
the second one what follows the first belongs to no handle. -/
def scanTagHandle (cursor : Cursor) : List Char × Cursor :=
  let (word, cursor) := cursor.next.readWhile isWordChar
  if cursor.isAt (· == '!') then ('!' :: word ++ ['!'], cursor.next) else ('!' :: word, cursor)

/-- Reads a tag at its exclamation mark. -/
def scanTag (inFlow : Bool) (cursor : Cursor) : Except Problem (Token × Cursor) := do
  let (token, cursor) ←
    if cursor.next.isAt (· == '<') then do
      let (suffix, cursor) ← scanTagChars true [] cursor.next.next
      if !cursor.isAt (· == '>') then throw .badTag
      pure (Token.tag "" suffix, cursor.next)
    else do
      let (handle, cursor) := scanTagHandle cursor
      if handle.length > 1 && handle.getLast? == some '!' then do
        let (suffix, cursor) ← scanTagChars false [] cursor
        pure (Token.tag (String.ofList handle) suffix, cursor)
      else do
        let (suffix, cursor) ← scanTagChars false handle cursor
        pure (if suffix.isEmpty then Token.tag "" "!" else Token.tag "!" suffix, cursor)
  if !cursor.atGap && !(inFlow && cursor.isAt (· == ',')) then throw .badTag
  return (token, cursor)

/-! ## Directives -/

/-- Reads a version number of at most nine digits. -/
def scanVersionNumber (cursor : Cursor) : Except Problem (Nat × Cursor) :=
  let (digits, cursor) := cursor.readWhile fun c => '0' ≤ c && c ≤ '9'
  if digits.isEmpty || digits.length > 9 then .error .badDirective
  else .ok (digits.foldl (fun n d => n * 10 + (d.toNat - '0'.toNat)) 0, cursor)

/-- Reads a directive at its percent sign, with the line end after it. -/
def scanDirective (cursor : Cursor) : Except Problem (Token × Cursor) := do
  let (name, cursor) := cursor.next.readWhile isWordChar
  if name.isEmpty || !cursor.atGap then throw .badDirective
  let cursor := cursor.skipWhile isBlank
  let (token, cursor) ←
    if name = "YAML".toList then do
      let (major, cursor) ← scanVersionNumber cursor
      if !cursor.isAt (· == '.') then throw .badDirective
      let (minor, cursor) ← scanVersionNumber cursor.next
      pure (Token.versionDirective major minor, cursor)
    else if name = "TAG".toList then do
      if !cursor.isAt (· == '!') then throw .badDirective
      let (handle, cursor) := scanTagHandle cursor
      if handle.length > 1 && handle.getLast? != some '!' then throw .badDirective
      if !cursor.isAt isBlank then throw .badDirective
      let (expansion, cursor) ← scanTagChars true [] (cursor.skipWhile isBlank)
      if !cursor.atGap then throw .badDirective
      pure (Token.tagDirective (String.ofList handle) expansion, cursor)
    else throw .badDirective
  let cursor := cursor.skipWhile isBlank
  let cursor := if cursor.isAt (· == '#') then cursor.skipWhile fun c => !isBreak c else cursor
  if !cursor.atLineEnd then throw .badDirective
  return (token, cursor.next)

end ScrapeDiscovery.Yaml

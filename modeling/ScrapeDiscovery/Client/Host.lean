import ScrapeDiscovery.Text.Numeral
import ScrapeDiscovery.Text.Search
import ScrapeDiscovery.Text.UrlEncoded

/-!
# The hosts of addresses

A host between brackets is an IP address of version 6. In the addresses of the
web any other host is a name, or an IP address of version 4 if its last part is a
number; elsewhere it is any text without the characters that end a host.
-/

namespace ScrapeDiscovery.Client

open Text (splitOnChar digitValue)

/-- Why a text is no address. -/
inductive AddressError where
  /-- There is no scheme. -/
  | relative
  | invalidHost
  | invalidPort
  deriving DecidableEq, Repr

namespace Host

/-- Whether `c` is never part of a host. -/
def isForbidden (c : Char) : Bool :=
  c = '\x00' || c = '\t' || c = '\n' || c = '\r' || c = ' ' || c = '#' || c = '/' || c = ':' ||
    c = '<' || c = '>' || c = '?' || c = '@' || c = '[' || c = '\\' || c = ']' || c = '^' || c = '|'

/-- Whether `c` is never part of a name. -/
def isForbiddenInName (c : Char) : Bool := isForbidden c || c < ' ' || c = '%' || c = '\x7f'

/-- The number of a part of an address of version 4, in base sixteen after `0x`, in base eight
after a zero. A number that needs more than 32 bits is not told from the least such number. -/
def partNumber? (cs : List Char) : Option Nat :=
  let (radix, digits) :=
    match cs with
    | '0' :: 'x' :: ds => (16, ds)
    | '0' :: 'X' :: ds => (16, ds)
    | ['0'] => (10, ['0'])
    | '0' :: ds => (8, ds)
    | ds => (10, ds)
  if cs.isEmpty then none
  else
    digits.foldlM
      (fun n c => (digitValue radix c).map fun d => min (n * radix + d) 4294967296) 0

/-- Whether the last part of a name is a number, so that the name has to be an address. -/
def endsInNumber (parts : List (List Char)) : Bool :=
  match parts.reverse with
  | [] :: last :: _ => isNumber last
  | [[]] => false
  | last :: _ => isNumber last
  | [] => false
where
  /-- Whether a part is written as a number, of any size. -/
  isNumber (cs : List Char) : Bool :=
    (!cs.isEmpty && cs.all Char.isDigit) || (partNumber? cs).isSome

/-- Whether the parts are an address of version 4: the last number fills the bytes that the
others leave. -/
def isVersion4 (parts : List (List Char)) : Bool :=
  let parts := if parts.getLast? = some [] then parts.dropLast else parts
  match parts.mapM partNumber? with
  | none => false
  | some numbers =>
    numbers.length ≤ 4 &&
      numbers.dropLast.all (· ≤ 255) &&
      numbers.getLast?.all (· < Nat.pow 256 (5 - numbers.length))

/-- Whether the parts are four numbers below 256 without zeros in front. -/
def isDottedQuad (cs : List Char) : Bool :=
  let parts := splitOnChar (· == '.') cs
  let isByte (p : List Char) : Bool :=
    !p.isEmpty && p.length ≤ 3 && p.all Char.isDigit && (p.length = 1 || p.head? ≠ some '0') &&
      (partNumber? p).all (· ≤ 255)
  parts.length = 4 && parts.all isByte

/-- How many groups of 16 bits a list of groups between colons has, where the last one may be
an address of version 4. -/
def groupCount? (groups : List (List Char)) (mayEndDotted : Bool) : Option Nat :=
  let isGroup (g : List Char) : Bool :=
    !g.isEmpty && g.length ≤ 4 && g.all fun c => (digitValue 16 c).isSome
  match groups.reverse with
  | [] => some 0
  | last :: others =>
    if others.all isGroup then
      if isGroup last then some groups.length
      else if mayEndDotted && isDottedQuad last then some (groups.length + 1)
      else none
    else none

/-- The groups of a side of a double colon. -/
def groupsOf (cs : List Char) : List (List Char) :=
  if cs.isEmpty then [] else splitOnChar (· == ':') cs

/-- What stands before and after the first double colon. -/
def splitAtGap : List Char → Option (List Char × List Char)
  | ':' :: ':' :: cs => some ([], cs)
  | c :: cs => (splitAtGap cs).map fun (before, after) => (c :: before, after)
  | [] => none

/-- Whether a text is an address of version 6. -/
def isVersion6 (cs : List Char) : Bool :=
  match splitAtGap cs with
  | none => groupCount? (groupsOf cs) true = some 8
  | some (before, after) =>
    match groupCount? (groupsOf before) false, groupCount? (groupsOf after) true with
    | some m, some n => m + n ≤ 7
    | _, _ => false

/-- The text between brackets. -/
def bracketed? : List Char → Option (List Char)
  | '[' :: cs => if cs.getLast? = some ']' then some cs.dropLast else none
  | _ => none

/-- Reads the host of an address of the web. -/
def ofWeb (cs : List Char) : Except AddressError String :=
  if cs.head? = some '[' then
    if (bracketed? cs).any isVersion6 then .ok (String.ofList cs) else .error .invalidHost
  else
    let name :=
      (Text.decodeUtf8Lossy (Text.decodePercent (Text.utf8Bytes (String.ofList cs)))).toList
    let parts := splitOnChar (· == '.') name
    if name.isEmpty || name.any isForbiddenInName then .error .invalidHost
    else if endsInNumber parts && !isVersion4 parts then .error .invalidHost
    else .ok (String.ofList (name.map Char.toLower))

/-- Reads the host of any other address. -/
def ofOther (cs : List Char) : Except AddressError String :=
  if cs.head? = some '[' then
    if (bracketed? cs).any isVersion6 then .ok (String.ofList cs) else .error .invalidHost
  else if cs.any isForbidden then .error .invalidHost
  else .ok (String.ofList cs)

end Host

end ScrapeDiscovery.Client

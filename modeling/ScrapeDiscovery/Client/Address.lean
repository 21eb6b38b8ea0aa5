import ScrapeDiscovery.Client.Host

/-!
# Addresses

An address has a scheme; most have a host and a path of segments, against which
relative references are resolved: the last segment is replaced by those of the
reference. Reading follows the rules for addresses of the web: blank ends and
line ends are dropped, a backslash is a slash where the scheme is one of the web,
segments of one or two dots move up, and what may not stand in a path is written
in hexadecimal.

Results:
* `resolve_segments`: plain segments of a reference take the place of the last segment.
-/

namespace ScrapeDiscovery.Client

open Text (splitOnChar)

/-- An address. -/
structure Address where
  /-- The scheme, in small letters. -/
  scheme : String
  host : String := ""
  port : Option Nat := none
  /-- The segments of the path; none if what follows the scheme is no path. -/
  segments : Option (List String) := some []
  deriving DecidableEq, Repr

namespace Address

/-! ## Paths -/

/-- Whether a byte of a path is written as it is. -/
def isPathByte (b : Nat) : Bool :=
  32 < b && b < 127 && b ≠ 34 && b ≠ 35 && b ≠ 60 && b ≠ 62 && b ≠ 63 && b ≠ 96 && b ≠ 123 &&
    b ≠ 125

/-- A segment as it is written. -/
def encodeSegment (cs : List Char) : String :=
  String.ofList ((Text.utf8Bytes (String.ofList cs)).flatMap fun b =>
    if isPathByte b then [Char.ofNat b] else Text.percentEncode b)

/-- A segment with its written dots made plain. -/
def plainDots : List Char → List Char
  | '%' :: '2' :: 'e' :: cs => '.' :: plainDots cs
  | '%' :: '2' :: 'E' :: cs => '.' :: plainDots cs
  | c :: cs => c :: plainDots cs
  | [] => []

/-- Puts one more segment at the end of a path: a dot stays where it is, two dots move up. The
last segment of a reference leaves an empty one then. -/
def step (path : List String) (segment : List Char) (isLast : Bool) : List String :=
  if plainDots segment = ['.', '.'] then path.dropLast ++ (if isLast then [""] else [])
  else if plainDots segment = ['.'] then path ++ (if isLast then [""] else [])
  else path ++ [encodeSegment segment]

/-- Puts segments at the end of a path. -/
def walk (path : List String) : List (List Char) → List String
  | [] => path
  | [s] => step path s true
  | s :: t :: rest => walk (step path s false) (t :: rest)

/-- The path of an address as it is written. -/
def path (a : Address) : String :=
  match a.segments with
  | some (s :: ss) => "/" ++ "/".intercalate (s :: ss)
  | _ => "/"

/-- The address that a reference of segments leads to. -/
def resolve? (a : Address) (reference : List String) : Option Address :=
  a.segments.map fun segments =>
    { a with segments := some (walk segments.dropLast (reference.map String.toList)) }

/-! ## Reading -/

/-- Drops the blank and control characters at both ends and the line ends everywhere. -/
def clean (cs : List Char) : List Char :=
  let isBlank (c : Char) : Bool := c ≤ ' '
  ((((cs.dropWhile isBlank).reverse).dropWhile isBlank).reverse).filter fun c =>
    c ≠ '\t' && c ≠ '\n' && c ≠ '\r'

/-- Splits off the scheme and its colon. -/
def readScheme? (cs : List Char) : Option (String × List Char) :=
  let isSchemeChar (c : Char) : Bool := c.isAlphanum || c = '+' || c = '-' || c = '.'
  let scheme := cs.takeWhile isSchemeChar
  match cs.dropWhile isSchemeChar with
  | ':' :: rest =>
    if (scheme.head?.map Char.isAlpha).getD false then
      some (String.ofList (scheme.map Char.toLower), rest)
    else none
  | _ => none

/-- The port that a scheme of the web has unless another one is given. -/
def defaultPort? : String → Option Nat
  | "http" | "ws" => some 80
  | "https" | "wss" => some 443
  | "ftp" => some 21
  | _ => none

/-- Whether a character separates the segments of a path. -/
def isSlash (ofWeb : Bool) (c : Char) : Bool := c = '/' || (ofWeb && c = '\\')

/-- Drops the query and the fragment. -/
def withoutQuery (cs : List Char) : List Char := cs.takeWhile fun c => c ≠ '?' && c ≠ '#'

/-- The segments of what follows the host, or of a text that begins with a slash. -/
def readPath (ofWeb : Bool) (cs : List Char) : List String :=
  match withoutQuery cs with
  | [] => if ofWeb then [""] else []
  | c :: rest => walk [] (splitOnChar (isSlash ofWeb) (if isSlash ofWeb c then rest else c :: rest))

/-- Splits a text after its last character `c`. -/
def afterLast (c : Char) (cs : List Char) : Option (List Char) :=
  if cs.contains c then some ((cs.reverse.takeWhile (· ≠ c)).reverse) else none

/-- Splits a host from what follows its colon; a colon between brackets is part of the host. -/
def splitHost : (bracketed : Bool) → List Char → List Char × Option (List Char)
  | _, [] => ([], none)
  | false, ':' :: cs => ([], some cs)
  | bracketed, c :: cs =>
    let inside := if c = '[' then true else if c = ']' then false else bracketed
    let (host, port) := splitHost inside cs
    (c :: host, port)

/-- Reads a port: none at all is the default one. -/
def readPort (cs : List Char) : Except AddressError (Option Nat) :=
  if cs.isEmpty then .ok none
  else if cs.all Char.isDigit then
    match Text.readInt 10 .nat16 cs with
    | .ok n => .ok (some n.toNat)
    | .error _ => .error .invalidPort
  else .error .invalidPort

/-- Reads what follows the two slashes: who asks, the host, the port and the path. -/
def readAuthority (scheme : String) (ofWeb : Bool) (cs : List Char) :
    Except AddressError Address := do
  let isEnd (c : Char) : Bool := isSlash ofWeb c || c = '?' || c = '#'
  let authority := cs.takeWhile fun c => !isEnd c
  let rest := cs.dropWhile fun c => !isEnd c
  let user := afterLast '@' authority
  let (host, port) := splitHost false (user.getD authority)
  if user.isSome && host.isEmpty then throw .invalidHost
  if host.isEmpty && port.isSome then throw .invalidHost
  let host ← if ofWeb then Host.ofWeb host else Host.ofOther host
  let port ← readPort (port.getD [])
  return { scheme, host, port, segments := some (readPath ofWeb rest) }

/-- Reads the address of a file: its host may be missing. -/
def readFile (cs : List Char) : Except AddressError Address := do
  match cs with
  | a :: b :: rest =>
    if isSlash true a && isSlash true b then
      let isEnd (c : Char) : Bool := isSlash true c || c = '?' || c = '#'
      let host := rest.takeWhile fun c => !isEnd c
      let host ← if host.isEmpty then pure "" else Host.ofWeb host
      return {
        scheme := "file", host,
        segments := some (readPath true (rest.dropWhile fun c => !isEnd c)) }
    else return { scheme := "file", segments := some (readPath true cs) }
  | _ => return { scheme := "file", segments := some (readPath true cs) }

/-- Reads an address. -/
def parse (s : String) : Except AddressError Address :=
  match readScheme? (clean s.toList) with
  | none => .error .relative
  | some (scheme, rest) =>
    if scheme = "file" then readFile rest
    else if (defaultPort? scheme).isSome then
      readAuthority scheme true (rest.dropWhile (isSlash true))
    else
      match rest with
      | '/' :: '/' :: rest => readAuthority scheme false rest
      | '/' :: _ => .ok { scheme, segments := some (readPath false rest) }
      | _ => .ok { scheme, segments := none }

/-- Whether requests can be sent to the address. -/
def isHttp (a : Address) : Bool := a.scheme = "http" || a.scheme = "https"

/-- The port of the address, or the one of its scheme. -/
def portNumber (a : Address) : Nat := a.port.getD ((defaultPort? a.scheme).getD 0)

/-! ## Laws -/

/-- Segments that are neither dots nor need encoding. -/
def IsPlain (s : String) : Prop :=
  plainDots s.toList ≠ ['.', '.'] ∧ plainDots s.toList ≠ ['.'] ∧ encodeSegment s.toList = s

theorem walk_plain {path : List String} {reference : List String} (h : ∀ s ∈ reference, IsPlain s) :
    walk path (reference.map String.toList) = path ++ reference := by
  induction reference generalizing path with
  | nil => simp [walk]
  | cons s rest ih =>
    have hs := h s List.mem_cons_self
    have hstep : ∀ isLast, step path s.toList isLast = path ++ [s] := by
      intro isLast
      simp [step, hs.1, hs.2.1, hs.2.2]
    cases rest with
    | nil => simp [walk, hstep]
    | cons t rest =>
      have := @ih (path ++ [s]) fun x hx => h x (List.mem_cons_of_mem _ hx)
      simp only [List.map_cons] at this ⊢
      simp [walk, hstep, this]

/-- Plain segments of a reference take the place of the last segment. -/
theorem resolve_segments {a : Address} {segments reference : List String}
    (ha : a.segments = some segments) (h : ∀ s ∈ reference, IsPlain s) :
    a.resolve? reference = some { a with segments := some (segments.dropLast ++ reference) } := by
  simp [resolve?, ha, walk_plain h]

end Address

end ScrapeDiscovery.Client

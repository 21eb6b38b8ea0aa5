/-!
# Glob patterns

A pattern is matched against a whole text. `?` stands for one character, `*`
for any run of characters, `[abc]`, `[a-z]` and `[!a-z]` for one character in or
out of a set, and `**/`, which must be a path component of its own, for any run
of components. No character is special in the text: `*` and `?` also stand for
a `/`.

Results:
* `isMatch_plain`: a pattern without special characters matches itself only.
-/

namespace ScrapeDiscovery.Glob

/-- A member of a character set: the characters from `first` to `last`. -/
structure CharRange where
  first : Char
  last : Char
  deriving DecidableEq, Repr

/-- One element of a pattern. -/
inductive Token where
  /-- Exactly this character. -/
  | exactly (c : Char)
  /-- Any one character. -/
  | anyChar
  /-- One character of a set. -/
  | within (set : List CharRange)
  /-- One character outside of a set. -/
  | except (set : List CharRange)
  /-- Any run of characters. -/
  | anyRun
  /-- Any run of whole path components. -/
  | anyPath
  deriving DecidableEq, Repr

/-- What is wrong with a pattern. -/
inductive FaultKind where
  | tooManyStars
  | partialComponent
  | invalidRange
  deriving DecidableEq, Repr

/-- A fault and its place, counted in characters. -/
structure Fault where
  position : Nat
  kind : FaultKind
  deriving DecidableEq, Repr

/-- The wording of a fault. -/
def Fault.message (f : Fault) : String :=
  "Pattern syntax error near position " ++ toString f.position ++ ": " ++
    match f.kind with
    | .tooManyStars => "wildcards are either regular `*` or recursive `**`"
    | .partialComponent => "recursive wildcards must form a single path component"
    | .invalidRange => "invalid range pattern"

/-! ## Reading patterns -/

/-- The ranges that the text of a set names: `a-c` is a range, any other character stands
for itself. -/
def readSet : List Char → List CharRange
  | a :: '-' :: b :: cs => ⟨a, b⟩ :: readSet cs
  | c :: cs => ⟨c, c⟩ :: readSet cs
  | [] => []

/-- Where the reader stands. -/
inductive Place where
  /-- Outside of a set, after the character `before`. -/
  | outside (before : Option Char)
  /-- After the opening bracket at `start`. -/
  | opened (start : Nat)
  /-- In a set whose first character is still to come. -/
  | first (start : Nat) (negated : Bool)
  /-- In a set with the characters `chars`. -/
  | inside (start : Nat) (negated : Bool) (chars : List Char)
  deriving DecidableEq, Repr

/-- Adds `**/`, unless the pattern so far ends in it. -/
def pushPath (tokens : List Token) : List Token :=
  if tokens.getLast? = some .anyPath then tokens else tokens ++ [.anyPath]

/-- Reads the pattern from `pos` on, after the elements `tokens`. -/
def scan (tokens : List Token) : Place → Nat → List Char → Except Fault (List Token)
  | .outside _, _, [] => .ok tokens
  | .opened start, _, [] => .error ⟨start, .invalidRange⟩
  | .first start _, _, [] => .error ⟨start, .invalidRange⟩
  | .inside start _ _, _, [] => .error ⟨start, .invalidRange⟩
  | .opened start, pos, c :: cs =>
    if c = '!' then scan tokens (.first start true) (pos + 1) cs
    else scan tokens (.inside start false [c]) (pos + 1) cs
  | .first start negated, pos, c :: cs => scan tokens (.inside start negated [c]) (pos + 1) cs
  | .inside start negated chars, pos, c :: cs =>
    if c = ']' then
      let set := readSet chars
      scan (tokens ++ [if negated then .except set else .within set]) (.outside (some c))
        (pos + 1) cs
    else scan tokens (.inside start negated (chars ++ [c])) (pos + 1) cs
  | .outside _, pos, '*' :: '*' :: '*' :: _ => .error ⟨pos + 2, .tooManyStars⟩
  | .outside before, pos, '*' :: '*' :: cs =>
    if before = none ∨ before = some '/' then
      match cs with
      | [] => .ok (pushPath tokens)
      | '/' :: cs => scan (pushPath tokens) (.outside (some '/')) (pos + 3) cs
      | _ => .error ⟨pos + 2, .partialComponent⟩
    else .error ⟨pos - 1, .partialComponent⟩
  | .outside _, pos, '*' :: cs => scan (tokens ++ [.anyRun]) (.outside (some '*')) (pos + 1) cs
  | .outside _, pos, '?' :: cs => scan (tokens ++ [.anyChar]) (.outside (some '?')) (pos + 1) cs
  | .outside _, pos, '[' :: cs => scan tokens (.opened pos) (pos + 1) cs
  | .outside _, pos, c :: cs => scan (tokens ++ [.exactly c]) (.outside (some c)) (pos + 1) cs

end Glob

/-- A pattern that has been read. -/
structure Glob where
  tokens : List Glob.Token
  deriving DecidableEq, Repr

namespace Glob

/-- Reads a pattern. -/
def compile (pattern : String) : Except Fault Glob :=
  (scan [] (.outside none) 0 pattern.toList).map Glob.mk

/-! ## Matching -/

/-- How the attempt to match a text ends. -/
inductive Outcome where
  | matched
  /-- The text differs from the pattern; a longer run before it may still help. -/
  | differs
  /-- The text ends before the pattern; a longer run before it leaves even less text. -/
  | tooShort
  deriving DecidableEq, Repr

/-- Whether `c` is in the set. -/
def inSet (set : List CharRange) (c : Char) : Bool :=
  set.any fun r => r.first ≤ c && c ≤ r.last

/-- Whether an element that stands for one character stands for `c`. -/
def Token.accepts : Token → Char → Bool
  | .exactly d, c => c == d
  | .anyChar, _ => true
  | .within set, c => inSet set c
  | .except set, c => !inSet set c
  | .anyRun, _ => false
  | .anyPath, _ => false

/-- Tries `rest` after ever longer runs of characters, each at least one long. With
`components` a run ends after a `/` or takes in the whole text. -/
def afterRun (components : Bool) (rest : List Char → Outcome) : List Char → Outcome
  | [] => rest []
  | c :: cs =>
    if components && c ≠ '/' then afterRun components rest cs
    else
      match rest cs with
      | .differs => afterRun components rest cs
      | outcome => outcome

/-- Matches the elements of a pattern against a text. -/
def run : List Token → List Char → Outcome
  | [], cs => if cs.isEmpty then .matched else .differs
  | .anyRun :: ts, cs =>
    match run ts cs with
    | .differs => afterRun false (run ts) cs
    | outcome => outcome
  | .anyPath :: ts, cs =>
    match run ts cs with
    | .differs => afterRun true (run ts) cs
    | outcome => outcome
  | _ :: _, [] => .tooShort
  | t :: ts, c :: cs => if t.accepts c then run ts cs else .differs

/-- Whether the pattern matches all of `text`. -/
def isMatch (g : Glob) (text : String) : Bool := run g.tokens text.toList == .matched

/-! ## Patterns without special characters -/

theorem run_exactly (ds cs : List Char) :
    run (ds.map .exactly) cs = .matched ↔ cs = ds := by
  induction ds generalizing cs with
  | nil => cases cs <;> simp [run]
  | cons d ds ih =>
    cases cs with
    | nil => simp [run]
    | cons c cs =>
      by_cases h : c = d
      · subst h
        simpa [run, Token.accepts] using ih cs
      · simp [run, Token.accepts, h]

/-- A pattern of plain characters matches itself only. -/
theorem isMatch_plain (ds : List Char) (text : String) :
    isMatch ⟨ds.map .exactly⟩ text = true ↔ text.toList = ds := by
  simp [isMatch, run_exactly]

end Glob

end ScrapeDiscovery

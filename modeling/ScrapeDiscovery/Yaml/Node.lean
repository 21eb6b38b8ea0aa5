import ScrapeDiscovery.Yaml.Token.Lexer

/-!
# The node tree of a YAML document

A document is a tree of scalars, sequences and mappings. A node may have an
anchor, and an alias stands for the node that had the anchor last.

Where the text leaves a node out, after a colon or a hyphen that nothing follows,
the tree has an empty plain scalar.
-/

namespace ScrapeDiscovery.Yaml

/-- A node. Tags matter on scalars only. -/
inductive Node where
  | scalar (anchor tag : Option String) (text : String) (style : ScalarStyle)
  | sequence (anchor : Option String) (items : List Node)
  | mapping (anchor : Option String) (entries : List (Node × Node))
  | alias (name : String)
  deriving Repr

/-- The node that the text leaves out. -/
def Node.absent : Node := .scalar none none "" .plain

/-- The expansions of tag handles. -/
abbrev Handles := List (String × String)

/-- The handles that are defined in every document. -/
def Handles.standard : Handles := [("!", "!"), ("!!", "tag:yaml.org,2002:")]

/-- The full text of a tag. -/
def Handles.resolve (hs : Handles) (handle suffix : String) : Except Problem String :=
  if handle = "" then .ok suffix
  else
    match hs.lookup handle with
    | none => .error .badTag
    | some expansion => .ok (expansion ++ suffix)

/-- The anchor and the tag before a node, in either order. -/
structure Properties where
  anchor : Option String
  tag : Option String
  deriving DecidableEq, Repr

/-- Takes the anchor and the tag before a node. -/
def Properties.take (hs : Handles) : List Token → Except Problem (Properties × List Token)
  | .anchor a :: .tag h s :: ts => do return (⟨some a, some (← hs.resolve h s)⟩, ts)
  | .tag h s :: .anchor a :: ts => do return (⟨some a, some (← hs.resolve h s)⟩, ts)
  | .anchor a :: ts => .ok (⟨some a, none⟩, ts)
  | .tag h s :: ts => do return (⟨none, some (← hs.resolve h s)⟩, ts)
  | ts => .ok (⟨none, none⟩, ts)

/-- The scalar node of a token. The tag `!` says nothing. -/
def Properties.scalar (p : Properties) (text : String) (style : ScalarStyle) : Node :=
  .scalar p.anchor (p.tag.filter (· ≠ "!")) text style

/-- Whether a block collection goes on without a node of its own. -/
def endsEntry : List Token → Bool
  | .blockEntry :: _ => true
  | .blockEnd :: _ => true
  | _ => false

/-- Whether the key or value of a mapping is left out. -/
def endsPair : List Token → Bool
  | .key :: _ => true
  | .value :: _ => true
  | .blockEnd :: _ => true
  | _ => false

/-- Whether the item of a sequence without indentation of its own is left out. -/
def endsIndentless (ts : List Token) : Bool :=
  endsEntry ts || endsPair ts

mutual

/-- Reads one node. `block` where block collections may stand, `indentless` where a sequence
may have the indentation of the mapping around it. -/
def readNode (hs : Handles) (block indentless : Bool) :
    (fuel : Nat) → List Token → Except Problem (Node × List Token)
  | 0, _ => .error .unexpectedToken
  | fuel + 1, ts => do
    match ts with
    | .alias name :: ts => return (.alias name, ts)
    | _ =>
      let (p, ts) ← Properties.take hs ts
      match ts with
      | .blockEntry :: _ =>
        if indentless then
          let (items, ts) ← readIndentless hs fuel ts
          return (.sequence p.anchor items, ts)
        else if p.anchor.isSome || p.tag.isSome then return (p.scalar "" .plain, ts)
        else throw .unexpectedToken
      | .scalar text style :: ts => return (p.scalar text style, ts)
      | .flowSequenceStart :: ts =>
        let (items, ts) ← readFlowSequence hs true fuel ts
        return (.sequence p.anchor items, ts)
      | .flowMappingStart :: ts =>
        let (entries, ts) ← readFlowMapping hs true fuel ts
        return (.mapping p.anchor entries, ts)
      | .blockSequenceStart :: rest =>
        if block then
          let (items, ts) ← readBlockSequence hs fuel rest
          return (.sequence p.anchor items, ts)
        else if p.anchor.isSome || p.tag.isSome then return (p.scalar "" .plain, ts)
        else throw .unexpectedToken
      | .blockMappingStart :: rest =>
        if block then
          let (entries, ts) ← readBlockMapping hs fuel rest
          return (.mapping p.anchor entries, ts)
        else if p.anchor.isSome || p.tag.isSome then return (p.scalar "" .plain, ts)
        else throw .unexpectedToken
      | _ =>
        if p.anchor.isSome || p.tag.isSome then return (p.scalar "" .plain, ts)
        else throw .unexpectedToken

/-- Reads the items of a block sequence up to its end. -/
def readBlockSequence (hs : Handles) :
    (fuel : Nat) → List Token → Except Problem (List Node × List Token)
  | 0, _ => .error .unexpectedToken
  | fuel + 1, ts =>
    match ts with
    | .blockEntry :: ts => do
      let (item, ts) ←
        if endsEntry ts then pure (Node.absent, ts) else readNode hs true false fuel ts
      let (items, ts) ← readBlockSequence hs fuel ts
      return (item :: items, ts)
    | .blockEnd :: ts => .ok ([], ts)
    | _ => .error .unexpectedToken

/-- Reads the items of a sequence that has the indentation of the mapping around it. -/
def readIndentless (hs : Handles) :
    (fuel : Nat) → List Token → Except Problem (List Node × List Token)
  | 0, _ => .error .unexpectedToken
  | fuel + 1, ts =>
    match ts with
    | .blockEntry :: ts => do
      let (item, ts) ←
        if endsIndentless ts then pure (Node.absent, ts) else readNode hs true false fuel ts
      let (items, ts) ← readIndentless hs fuel ts
      return (item :: items, ts)
    | ts => .ok ([], ts)

/-- Reads the entries of a block mapping up to its end. -/
def readBlockMapping (hs : Handles) :
    (fuel : Nat) → List Token → Except Problem (List (Node × Node) × List Token)
  | 0, _ => .error .unexpectedToken
  | fuel + 1, ts =>
    match ts with
    | .blockEnd :: ts => .ok ([], ts)
    | .key :: ts => do
      let (k, ts) ← if endsPair ts then pure (Node.absent, ts) else readNode hs true true fuel ts
      let (v, ts) ←
        match ts with
        | .value :: ts =>
          if endsPair ts then pure (Node.absent, ts) else readNode hs true true fuel ts
        | ts => pure (Node.absent, ts)
      let (entries, ts) ← readBlockMapping hs fuel ts
      return ((k, v) :: entries, ts)
    | _ => .error .unexpectedToken

/-- Reads the items of a flow sequence up to its end. A key among them begins a mapping of
one entry. -/
def readFlowSequence (hs : Handles) (first : Bool) :
    (fuel : Nat) → List Token → Except Problem (List Node × List Token)
  | 0, _ => .error .unexpectedToken
  | fuel + 1, ts =>
    match ts with
    | .flowSequenceEnd :: ts => .ok ([], ts)
    | ts => do
      let ts ←
        if first then pure ts
        else
          match ts with
          | .flowEntry :: ts => pure ts
          | _ => throw .unexpectedToken
      match ts with
      | .flowSequenceEnd :: ts => return ([], ts)
      | .key :: ts =>
        let (k, ts) ←
          match ts with
          | .value :: ts => pure (Node.absent, ts)
          | .flowEntry :: ts => pure (Node.absent, ts)
          | .flowSequenceEnd :: ts => pure (Node.absent, ts)
          | ts => readNode hs false false fuel ts
        let (v, ts) ←
          match ts with
          | .value :: ts =>
            match ts with
            | .flowEntry :: _ => pure (Node.absent, ts)
            | .flowSequenceEnd :: _ => pure (Node.absent, ts)
            | ts => readNode hs false false fuel ts
          | ts => pure (Node.absent, ts)
        let (items, ts) ← readFlowSequence hs false fuel ts
        return (.mapping none [(k, v)] :: items, ts)
      | ts =>
        let (item, ts) ← readNode hs false false fuel ts
        let (items, ts) ← readFlowSequence hs false fuel ts
        return (item :: items, ts)

/-- Reads the entries of a flow mapping up to its end. A node without a key indicator is a
key without a value. -/
def readFlowMapping (hs : Handles) (first : Bool) :
    (fuel : Nat) → List Token → Except Problem (List (Node × Node) × List Token)
  | 0, _ => .error .unexpectedToken
  | fuel + 1, ts =>
    match ts with
    | .flowMappingEnd :: ts => .ok ([], ts)
    | ts => do
      let ts ←
        if first then pure ts
        else
          match ts with
          | .flowEntry :: ts => pure ts
          | _ => throw .unexpectedToken
      match ts with
      | .flowMappingEnd :: ts => return ([], ts)
      | .key :: ts =>
        let (k, ts) ←
          match ts with
          | .value :: _ => pure (Node.absent, ts)
          | .flowEntry :: _ => pure (Node.absent, ts)
          | .flowMappingEnd :: _ => pure (Node.absent, ts)
          | ts => readNode hs false false fuel ts
        let (v, ts) ←
          match ts with
          | .value :: ts =>
            match ts with
            | .flowEntry :: _ => pure (Node.absent, ts)
            | .flowMappingEnd :: _ => pure (Node.absent, ts)
            | ts => readNode hs false false fuel ts
          | ts => pure (Node.absent, ts)
        let (entries, ts) ← readFlowMapping hs false fuel ts
        return ((k, v) :: entries, ts)
      | ts =>
        let (k, ts) ← readNode hs false false fuel ts
        let (entries, ts) ← readFlowMapping hs false fuel ts
        return ((k, Node.absent) :: entries, ts)

end

/-! ## Documents -/

/-- The directives before a document. -/
structure Directives where
  hasVersion : Bool
  handles : Handles
  deriving DecidableEq, Repr

/-- Reads the directives before a document: at most one version, 1.1 or 1.2, and at most one
expansion for each handle. -/
def Directives.read (d : Directives) : List Token → Except Problem (Directives × List Token)
  | .versionDirective major minor :: ts =>
    if d.hasVersion || major != 1 || (minor != 1 && minor != 2) then .error .badDirective
    else Directives.read { d with hasVersion := true } ts
  | .tagDirective handle expansion :: ts =>
    if d.handles.any fun h => h.1 == handle then .error .badDirective
    else Directives.read { d with handles := d.handles ++ [(handle, expansion)] } ts
  | ts => .ok (d, ts)

/-- Whether a document that has been announced is left empty. -/
def endsDocument : List Token → Bool
  | [] => true
  | .versionDirective .. :: _ => true
  | .tagDirective .. :: _ => true
  | .documentStart :: _ => true
  | .documentEnd :: _ => true
  | _ => false

/-- The only document of a stream of tokens, or nothing for an empty stream. -/
def Node.ofTokens (tokens : List Token) : Except Problem (Option Node) := do
  if tokens.isEmpty then return none
  let explicit := match tokens with
    | .versionDirective .. :: _ => true
    | .tagDirective .. :: _ => true
    | .documentStart :: _ => true
    | _ => false
  let (d, ts) ←
    if explicit then Directives.read ⟨false, []⟩ tokens else pure (⟨false, []⟩, tokens)
  let ts ←
    match explicit, ts with
    | false, ts => pure ts
    | true, .documentStart :: ts => pure ts
    | true, _ => throw .unexpectedToken
  let (node, ts) ←
    if explicit && endsDocument ts then pure (Node.absent, ts)
    else readNode (d.handles ++ Handles.standard) true false (2 * ts.length + 2) ts
  if ts.all (· == .documentEnd) then return some node else throw .severalDocuments

end ScrapeDiscovery.Yaml

import Conform.Yaml.Stream

/-!
# The nodes of a YAML document

`document?` puts the tokens of a text together: by recursive descent over block and flow
collections, with the anchors and tags in front of the nodes. An alias stands for the last node
that took the number of its anchor; anchors are numbered by how many names there were before, so a
name that is given again shares its number with the next new one.

The descent is bounded by the number of tokens, since a collection is entered and an item is passed
only over a token.
-/

namespace Conform.Yaml

/-- A node. The anchor is the number that aliases refer to. -/
inductive Node where
  | alias (anchor : Nat)
  | scalar (anchor : Option Nat) (tag : Option Tag) (plain : Bool) (text : String)
  | sequence (anchor : Option Nat) (tag : Option Tag) (items : List Node)
  | mapping (anchor : Option Nat) (tag : Option Tag) (entries : List (Node × Node))

/-- What stands in front of a node. -/
structure Properties where
  anchor : Option String
  tag : Option Tag

/-- What is left of the tokens, the anchors so far, and the meaning of tag handles. -/
structure Composer where
  tokens : List Token
  anchors : List (String × Nat)
  handles : List (String × Tag)

/-- Steps over the tokens of a text. -/
abbrev Compose := StateT Composer (Except Fault)

/-- A node without any content. -/
def Node.empty : Node := .scalar none none true ""

/-- The next token. -/
def peekToken : Compose Token := do return (← get).tokens.head?.getD .streamEnd

/-- Goes on behind the next token. -/
def skipToken : Compose Unit := modify fun s => { s with tokens := s.tokens.drop 1 }

/-- The number of an anchor of which there were some before. -/
def addAnchor (name : String) : Compose Nat := do
  let s ← get
  let number := s.anchors.length
  let others := s.anchors.filter (·.1 != name)
  set { s with anchors := (name, number) :: others }
  return number

/-- The node that an alias stands for. -/
def findAnchor (name : String) : Compose Node := do
  match (← get).anchors.lookup name with
  | some number => return .alias number
  | none => throw .unknownAlias

/-- The meaning of a tag. -/
def resolveTag (handle : String) (suffix : Tag) : Compose Tag := do
  if handle.isEmpty then return suffix
  else
    match (← get).handles.lookup handle with
    | some start => return start ++ suffix
    | none => throw .unknownTagHandle

/-- The anchor and the tag in front of a node, in either order. -/
def readProperties : Compose Properties := do
  match ← peekToken with
  | .anchor name =>
    skipToken
    match ← peekToken with
    | .tag handle suffix =>
      skipToken
      return ⟨some name, some (← resolveTag handle suffix)⟩
    | _ => return ⟨some name, none⟩
  | .tag handle suffix =>
    skipToken
    match ← peekToken with
    | .anchor name =>
      skipToken
      return ⟨some name, some (← resolveTag handle suffix)⟩
    | _ => return ⟨none, some (← resolveTag handle suffix)⟩
  | _ => return ⟨none, none⟩

/-- The number of the anchor in front of a node. -/
def Properties.addAnchor (p : Properties) : Compose (Option Nat) :=
  match p.anchor with
  | some name => some <$> Yaml.addAnchor name
  | none => pure none

/-- Whether the next token is one of those at which a node is left out. -/
def atOneOf (ends : List Token) : Compose Bool := do return ends.contains (← peekToken)

mutual

/-- A node. In block context blocks may start, and behind a key also the entries of a sequence that
is not indented. -/
def composeNode : Nat → Bool → Bool → Compose Node
  | 0, _, _ => throw .unexpectedToken
  | fuel + 1, block, indentless => do
    match ← peekToken with
    | .alias name =>
      skipToken
      findAnchor name
    | _ =>
      let p ← readProperties
      match ← peekToken with
      | .scalar text plain =>
        skipToken
        return .scalar (← p.addAnchor) p.tag plain text
      | .flowSequenceStart =>
        skipToken
        let anchor ← p.addAnchor
        return .sequence anchor p.tag (← composeFlowItems fuel true)
      | .flowMappingStart =>
        skipToken
        let anchor ← p.addAnchor
        return .mapping anchor p.tag (← composeFlowEntries fuel true)
      | token =>
        if indentless ∧ token = .blockEntry then
          let anchor ← p.addAnchor
          return .sequence anchor p.tag (← composeIndentless fuel)
        else if block ∧ token = .blockSequenceStart then
          skipToken
          let anchor ← p.addAnchor
          return .sequence anchor p.tag (← composeBlockItems fuel)
        else if block ∧ token = .blockMappingStart then
          skipToken
          let anchor ← p.addAnchor
          return .mapping anchor p.tag (← composeBlockEntries fuel)
        else if p.anchor.isSome ∨ p.tag.isSome then
          return .scalar (← p.addAnchor) p.tag true ""
        else throw .unexpectedToken

/-- A node, or an empty one at one of the tokens that end its place. -/
def composeUnless (ends : List Token) : Nat → Bool → Bool → Compose Node
  | 0, _, _ => throw .unexpectedToken
  | fuel + 1, block, indentless => do
    if ← atOneOf ends then return .empty else composeNode fuel block indentless

/-- The items of a block sequence. -/
def composeBlockItems : Nat → Compose (List Node)
  | 0 => throw .unexpectedToken
  | fuel + 1 => do
    match ← peekToken with
    | .blockEntry =>
      skipToken
      let item ← composeUnless [.blockEntry, .blockEnd] fuel true false
      return item :: (← composeBlockItems fuel)
    | .blockEnd =>
      skipToken
      return []
    | _ => throw .unexpectedToken

/-- The items of a block sequence that is not indented under its key. -/
def composeIndentless : Nat → Compose (List Node)
  | 0 => throw .unexpectedToken
  | fuel + 1 => do
    match ← peekToken with
    | .blockEntry =>
      skipToken
      let item ← composeUnless [.blockEntry, .key, .value, .blockEnd] fuel true false
      return item :: (← composeIndentless fuel)
    | _ => return []

/-- The value behind a key of a block mapping. -/
def composeBlockValue : Nat → Compose Node
  | 0 => throw .unexpectedToken
  | fuel + 1 => do
    match ← peekToken with
    | .value =>
      skipToken
      composeUnless [.key, .value, .blockEnd] fuel true true
    | _ => return .empty

/-- The entries of a block mapping. -/
def composeBlockEntries : Nat → Compose (List (Node × Node))
  | 0 => throw .unexpectedToken
  | fuel + 1 => do
    match ← peekToken with
    | .key =>
      skipToken
      let key ← composeUnless [.key, .value, .blockEnd] fuel true true
      let value ← composeBlockValue fuel
      return (key, value) :: (← composeBlockEntries fuel)
    | .blockEnd =>
      skipToken
      return []
    | _ => throw .unexpectedToken

/-- The value behind a key of a flow collection that ends in the given token. -/
def composeFlowValue (closing : Token) : Nat → Compose Node
  | 0 => throw .unexpectedToken
  | fuel + 1 => do
    match ← peekToken with
    | .value =>
      skipToken
      composeUnless [.flowEntry, closing] fuel false false
    | _ => return .empty

/-- The mapping of one entry that a key in a flow sequence starts. Where the key is left out, the
token in its place goes with it. -/
def composeFlowPair : Nat → Compose Node
  | 0 => throw .unexpectedToken
  | fuel + 1 => do
    let missing ← atOneOf [.value, .flowEntry, .flowSequenceEnd]
    if missing then skipToken
    let key ← if missing then pure .empty else composeNode fuel false false
    let value ← composeFlowValue .flowSequenceEnd fuel
    return .mapping none none [(key, value)]

/-- The items of a flow sequence. -/
def composeFlowItems : Nat → Bool → Compose (List Node)
  | 0, _ => throw .unexpectedToken
  | fuel + 1, first => do
    if ← atOneOf [.flowSequenceEnd] then
      skipToken
      return []
    else
      if !first then
        if ← atOneOf [.flowEntry] then skipToken else throw .unexpectedToken
      match ← peekToken with
      | .flowSequenceEnd =>
        skipToken
        return []
      | .key =>
        skipToken
        let item ← composeFlowPair fuel
        return item :: (← composeFlowItems fuel false)
      | _ =>
        let item ← composeNode fuel false false
        return item :: (← composeFlowItems fuel false)

/-- The entries of a flow mapping. -/
def composeFlowEntries : Nat → Bool → Compose (List (Node × Node))
  | 0, _ => throw .unexpectedToken
  | fuel + 1, first => do
    if ← atOneOf [.flowMappingEnd] then
      skipToken
      return []
    else
      if !first then
        if ← atOneOf [.flowEntry] then skipToken else throw .unexpectedToken
      match ← peekToken with
      | .flowMappingEnd =>
        skipToken
        return []
      | .key =>
        skipToken
        let key ← composeUnless [.value, .flowEntry, .flowMappingEnd] fuel false false
        let value ← composeFlowValue .flowMappingEnd fuel
        return (key, value) :: (← composeFlowEntries fuel false)
      | _ =>
        let key ← composeNode fuel false false
        return (key, .empty) :: (← composeFlowEntries fuel false)

end

/-- The handles that have a meaning without a directive. -/
def defaultHandles : List (String × Tag) :=
  [("!", .ofString "!"), ("!!", .ofString "tag:yaml.org,2002:")]

/-- Reads the directives in front of a document. -/
def composeDirectives : Nat → Bool → Compose Unit
  | 0, _ => throw .unexpectedToken
  | fuel + 1, versioned => do
    match ← peekToken with
    | .version major minor =>
      if versioned ∨ major ≠ 1 ∨ (minor ≠ 1 ∧ minor ≠ 2) then throw .badDirective
      skipToken
      composeDirectives fuel true
    | .tagDirective handle start =>
      if ((← get).handles.lookup handle).isSome then throw .badDirective
      modify fun s => { s with handles := s.handles ++ [(handle, start)] }
      skipToken
      composeDirectives fuel versioned
    | _ => modify fun s => { s with handles := s.handles ++ defaultHandles }

/-- Whether a token starts a document that tells its start. -/
def startsDocument : Token → Bool
  | .version _ _ | .tagDirective _ _ | .documentStart => true
  | _ => false

/-- Goes over the markers of a document's end. -/
def skipDocumentEnds : Compose Unit :=
  modify fun s => { s with tokens := s.tokens.dropWhile (· = .documentEnd) }

/-- The only document of a text, if there is one. -/
def composeStream (fuel : Nat) : Compose (Option Node) := do
  let first ← peekToken
  if first = .streamEnd then return none
  else
    let node ←
      if startsDocument first then
        composeDirectives fuel false
        if ← atOneOf [.documentStart] then skipToken else throw .unexpectedToken
        let next ← peekToken
        if startsDocument next ∨ next = .documentEnd ∨ next = .streamEnd then pure .empty
        else composeNode fuel true false
      else
        composeDirectives fuel false
        composeNode fuel true false
    skipDocumentEnds
    if ← atOneOf [.streamEnd] then return some node else throw .severalDocuments

/-- The only document of a text; `none` if the text holds none. -/
def document? (text : String) : Except Fault (Option Node) := do
  let tokens ← tokens text
  (composeStream (4 * tokens.length + 8)).run' ⟨tokens, [], []⟩

end Conform.Yaml

import Conform.Yaml.Scalar
import Conform.Yaml.Tag

/-!
# The tokens of a YAML text

`tokens` takes a text apart. Two things make this more than reading word after word. The
indentation of blocks turns into tokens: a block starts where its first entry or key stands
further to the right than the block around it, and ends before the first word that stands further
to the left. And a key is known as one only at the colon behind it, so the scanner remembers where
the last key may have started and puts the tokens that belong there in when the colon comes. Such a
key is on one line and takes at most 1024 bytes up to its colon.
-/

namespace Conform.Yaml

/-- Where a key may have started. -/
structure PossibleKey where
  /-- How many tokens there were before it. -/
  position : Nat
  /-- Whether the text is broken unless it is a key. -/
  required : Bool
  line : Nat
  column : Nat
  index : Nat

/-- The state of the scanner. -/
structure Scanner where
  cursor : Cursor
  /-- The tokens so far, the last one first. -/
  tokens : List Token
  count : Nat
  /-- The column of the block, negative outside of all blocks. -/
  indent : Int
  /-- The columns of the blocks around it. -/
  outerIndents : List Int
  /-- The key that may have started in the innermost flow collection, or outside of all. -/
  possibleKey : Option PossibleKey
  /-- The same for the collections around it. -/
  outerKeys : List (Option PossibleKey)
  /-- Whether a key may start here. -/
  keyAllowed : Bool

namespace Scanner

/-- The scanner at the start of a text. -/
def start (text : List Char) : Scanner := ⟨.start text, [], 0, -1, [], none, [], true⟩

/-- Whether the cursor is inside a flow collection. -/
def inFlow (s : Scanner) : Bool := !s.outerKeys.isEmpty

/-- Adds a token. -/
def push (token : Token) (s : Scanner) : Scanner :=
  { s with tokens := token :: s.tokens, count := s.count + 1 }

/-- Adds a token behind the first `position` ones. -/
def pushAt (position : Nat) (token : Token) (s : Scanner) : Scanner :=
  let after := s.count - position
  { s with
    tokens := s.tokens.take after ++ token :: s.tokens.drop after
    count := s.count + 1 }

/-- Adds a token and goes on behind its characters. -/
def pushOver (length : Nat) (token : Token) (s : Scanner) : Scanner :=
  { s.push token with cursor := s.cursor.advance length }

/-- Gives up the possible key. -/
def dropKey (s : Scanner) : Except Fault Scanner :=
  if s.possibleKey.any (·.required) then .error .keyNotClosed
  else .ok { s with possibleKey := none }

/-- Remembers that a key may start here. -/
def saveKey (s : Scanner) : Except Fault Scanner :=
  if s.keyAllowed then do
    let c := s.cursor
    let required := !s.inFlow && s.indent = c.column
    let s ← s.dropKey
    return { s with possibleKey := some ⟨s.count, required, c.line, c.column, c.index⟩ }
  else .ok s

/-- A key, unless the cursor is too far behind its start for it to be one. -/
def freshKey (c : Cursor) : Option PossibleKey → Except Fault (Option PossibleKey)
  | none => .ok none
  | some k =>
    if k.line < c.line ∨ k.index + 1024 < c.index then
      if k.required then .error .keyNotClosed else .ok none
    else .ok (some k)

/-- Gives up the keys that the cursor is too far behind of. -/
def dropStaleKeys (s : Scanner) : Except Fault Scanner := do
  let outerKeys ← s.outerKeys.mapM (freshKey s.cursor)
  let possibleKey ← freshKey s.cursor s.possibleKey
  return { s with possibleKey, outerKeys }

/-- Opens a block at a column, with a token at a position, if it is further to the right than the
block around it. -/
def openBlock (column position : Nat) (token : Token) (s : Scanner) : Scanner :=
  if !s.inFlow ∧ s.indent < column then
    { s.pushAt position token with indent := column, outerIndents := s.indent :: s.outerIndents }
  else s

/-- How many of the blocks are further to the right than a column, and those that are not. -/
def blocksBeyond (column indent : Int) : List Int → Nat × Int × List Int
  | [] => (0, indent, [])
  | outer :: rest =>
    if column < indent then
      let (count, indent, rest) := blocksBeyond column outer rest
      (count + 1, indent, rest)
    else (0, indent, outer :: rest)

/-- Closes the blocks that are further to the right than a column. -/
def closeBlocks (column : Int) (s : Scanner) : Scanner :=
  if s.inFlow then s
  else
    let (count, indent, outerIndents) := blocksBeyond column s.indent s.outerIndents
    { s with
      tokens := List.replicate count .blockEnd ++ s.tokens
      count := s.count + count
      indent, outerIndents }

/-- Goes over blanks, comments and line breaks to the next word. Where a key may start in a block,
tabs do not count as blanks. -/
def skipToWord : Nat → Scanner → Scanner
  | 0, s => s
  | rounds + 1, s =>
    let c := s.cursor
    let c := if c.column = 0 ∧ c.peek = some '\ufeff' then c.advance 1 else c
    let c := c.skipWhile fun next => next = ' ' || ((s.inFlow || !s.keyAllowed) && next = '\t')
    let c := c.skipComment
    if c.peek.any isBreak then
      skipToWord rounds
        { s with cursor := c.takeBreak.2, keyAllowed := s.keyAllowed || !s.inFlow }
    else { s with cursor := c }

/-! ## One word -/

/-- Closes all blocks for a directive, a document marker or the end of the text. -/
def closeDocument (s : Scanner) : Except Fault Scanner := do
  let s ← (s.closeBlocks (-1)).dropKey
  return { s with keyAllowed := false }

/-- Scans the opening bracket of a flow collection. -/
def openFlow (token : Token) (s : Scanner) : Except Fault Scanner := do
  let s ← s.saveKey
  return { s.pushOver 1 token with
    possibleKey := none
    outerKeys := s.possibleKey :: s.outerKeys
    keyAllowed := true }

/-- Scans the closing bracket of a flow collection. -/
def closeFlow (token : Token) (s : Scanner) : Except Fault Scanner := do
  let s ← s.dropKey
  let s := s.pushOver 1 token
  match s.outerKeys with
  | [] => return { s with keyAllowed := false }
  | key :: outer => return { s with possibleKey := key, outerKeys := outer, keyAllowed := false }

/-- Scans the comma of a flow collection. -/
def scanFlowEntry (s : Scanner) : Except Fault Scanner := do
  let s ← s.dropKey
  return { s.pushOver 1 .flowEntry with keyAllowed := true }

/-- Scans the dash of a block sequence. -/
def scanBlockEntry (s : Scanner) : Except Fault Scanner := do
  if !s.inFlow ∧ !s.keyAllowed then .error .misplacedEntry
  else
    let s ← (s.openBlock s.cursor.column s.count .blockSequenceStart).dropKey
    return { s.pushOver 1 .blockEntry with keyAllowed := true }

/-- Scans the question mark of a key. -/
def scanKey (s : Scanner) : Except Fault Scanner := do
  if !s.inFlow ∧ !s.keyAllowed then .error .misplacedKey
  else
    let s ← (s.openBlock s.cursor.column s.count .blockMappingStart).dropKey
    return { s.pushOver 1 .key with keyAllowed := !s.inFlow }

/-- Scans the colon of a value. -/
def scanValue (s : Scanner) : Except Fault Scanner :=
  match s.possibleKey with
  | some k =>
    let s := (s.pushAt k.position .key).openBlock k.column k.position .blockMappingStart
    .ok { s.pushOver 1 .value with possibleKey := none, keyAllowed := false }
  | none =>
    if !s.inFlow ∧ !s.keyAllowed then .error .misplacedValue
    else
      let s := s.openBlock s.cursor.column s.count .blockMappingStart
      .ok { s.pushOver 1 .value with keyAllowed := !s.inFlow }

/-- Scans an anchor or an alias. -/
def scanName (token : String → Token) (s : Scanner) : Except Fault Scanner := do
  let s ← s.saveKey
  let (name, cursor) ← readName (s.cursor.advance 1)
  return { s.push (token name) with cursor, keyAllowed := false }

/-- Scans a tag. -/
def scanTag (s : Scanner) : Except Fault Scanner := do
  let s ← s.saveKey
  let (token, cursor) ← readTag s.inFlow s.cursor
  return { s.push token with cursor, keyAllowed := false }

/-- Scans a block scalar. -/
def scanBlockScalar (literal : Bool) (s : Scanner) : Except Fault Scanner := do
  let s ← s.dropKey
  let (text, cursor) ← readBlock literal s.indent (s.cursor.advance 1)
  return { s.push (.scalar (String.ofList text) false) with cursor, keyAllowed := true }

/-- Scans a quoted scalar. -/
def scanQuoted (single : Bool) (s : Scanner) : Except Fault Scanner := do
  let s ← s.saveKey
  let (text, cursor) ← readQuoted single (s.cursor.advance 1)
  return { s.push (.scalar (String.ofList text) false) with cursor, keyAllowed := false }

/-- Scans a plain scalar. -/
def scanPlain (s : Scanner) : Except Fault Scanner := do
  let s ← s.saveKey
  let (text, broken, cursor) ← readPlain s.inFlow (s.indent + 1).toNat s.cursor
  return { s.push (.scalar (String.ofList text) true) with cursor, keyAllowed := broken }

/-- The characters with a meaning of their own, with which no plain scalar starts. -/
def indicators : List Char :=
  [',', '[', ']', '{', '}', '#', '&', '*', '!', '|', '>', '\x27', '"', '%', '@', '\x60']

/-- Whether a plain scalar may start with a character that another one follows. -/
def startsPlain (flow : Bool) (first : Char) (second : Option Char) : Bool :=
  if first = '-' then !second.any Yaml.isBlank
  else if first = '?' ∨ first = ':' then !flow && !isGap second
  else !isGap (some first) && !indicators.contains first

/-- Scans the word in front of the cursor. -/
def scanWord (s : Scanner) (first : Char) : Except Fault Scanner :=
  let c := s.cursor
  let second := c.peekAt 1
  if c.column = 0 ∧ first = '%' then do
    let s ← s.closeDocument
    let (token, cursor) ← readDirective c
    return { s.push token with cursor }
  else if c.atMarker '-' then (closeDocument s).map (pushOver 3 .documentStart)
  else if c.atMarker '.' then (closeDocument s).map (pushOver 3 .documentEnd)
  else if first = '[' then s.openFlow .flowSequenceStart
  else if first = '{' then s.openFlow .flowMappingStart
  else if first = ']' then s.closeFlow .flowSequenceEnd
  else if first = '}' then s.closeFlow .flowMappingEnd
  else if first = ',' then s.scanFlowEntry
  else if first = '-' ∧ isGap second then s.scanBlockEntry
  else if first = '?' ∧ (s.inFlow ∨ isGap second) then s.scanKey
  else if first = ':' ∧ (s.inFlow ∨ isGap second) then s.scanValue
  else if first = '*' then s.scanName .alias
  else if first = '&' then s.scanName .anchor
  else if first = '!' then s.scanTag
  else if first = '|' ∧ !s.inFlow then s.scanBlockScalar true
  else if first = '>' ∧ !s.inFlow then s.scanBlockScalar false
  else if first = '\'' then s.scanQuoted true
  else if first = '"' then s.scanQuoted false
  else if startsPlain s.inFlow first second then s.scanPlain
  else .error .unexpectedCharacter

/-- Scans words to the end of the text. -/
def scanAll : Nat → Scanner → Except Fault Scanner
  | 0, _ => .error .endOfInput
  | rounds + 1, s => do
    let s ← (s.skipToWord (s.cursor.left + 1)).dropStaleKeys
    let s := s.closeBlocks s.cursor.column
    match s.cursor.peek with
    | none => return (← s.closeDocument).push .streamEnd
    | some first => scanAll rounds (← s.scanWord first)

end Scanner

/-- The tokens of a text. -/
def tokens (text : String) : Except Fault (List Token) := do
  let cs := text.toList
  if !cs.all isAllowed then .error .badCharacter
  else
    let s ← (Scanner.start cs).scanAll (cs.length + 1)
    return s.tokens.reverse

end Conform.Yaml

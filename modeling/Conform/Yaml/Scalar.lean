import Conform.Text.Numeral
import Conform.Yaml.Cursor
import Conform.Yaml.Token

/-!
# Scalars in a YAML text

The reading of plain, quoted and block scalars. What stands between the words of a scalar is a
`Gap`: blanks within a line are kept, a single line break is folded into a space, and of more line
breaks all but the first are kept.
-/

namespace Conform.Yaml

/-- What is between two words of a scalar: the blanks within a line, or line breaks. -/
inductive Gap where
  | blanks (cs : List Char)
  | breaks (first more : List Char)

/-- The text that a gap stands for. A first break that is no line feed is not folded. -/
def Gap.text : Gap → List Char
  | .blanks cs => cs
  | .breaks first more =>
    if first = ['\n'] then if more.isEmpty then [' '] else more else first ++ more

/-- Whether there is a line break in the gap. -/
def Gap.isBreak : Gap → Bool
  | .blanks _ => false
  | .breaks _ _ => true

/-- Reads blanks and line breaks. In front of column `indent` no tab may start a line. -/
def readGap (indent : Nat) : Nat → Gap → Cursor → Except Fault (Gap × Cursor)
  | 0, gap, c => .ok (gap, c)
  | rounds + 1, gap, c =>
    match c.peek with
    | none => .ok (gap, c)
    | some next =>
      if isBlank next then
        match gap with
        | .blanks cs => readGap indent rounds (.blanks (cs ++ [next])) (c.advance 1)
        | gap =>
          if next = '\t' ∧ c.column < indent then .error .tabInIndentation
          else readGap indent rounds gap (c.advance 1)
      else if isBreak next then
        let (lineBreak, c) := c.takeBreak
        match gap with
        | .blanks _ => readGap indent rounds (.breaks lineBreak []) c
        | .breaks first more => readGap indent rounds (.breaks first (more ++ lineBreak)) c
      else .ok (gap, c)

/-! ## Plain scalars -/

/-- The characters that delimit the items of flow collections. -/
def isFlowIndicator (c : Char) : Bool :=
  c = ',' || c = '[' || c = ']' || c = '{' || c = '}'

/-- The characters of a plain scalar up to a blank, a line break, or what ends the scalar. -/
def plainWord (flow : Bool) : List Char → Except Fault (List Char)
  | [] => .ok []
  | c :: rest =>
    let next := rest.head?
    if isGap (some c) then .ok []
    else if flow && c = ':' && next.any (fun n => isFlowIndicator n || n = '?') then
      .error .badColon
    else if (c = ':' && isGap next) || (flow && isFlowIndicator c) then .ok []
    else (plainWord flow rest).map (c :: ·)

/-- The text of parts, the last of which comes first. -/
def joinParts (parts : List (List Char)) : List Char := parts.reverse.flatten

/-- Reads a plain scalar whose further lines start at column `indent` at least. The flag tells
whether the scalar is followed by a line break. -/
def readPlainLoop (flow : Bool) (indent : Nat) :
    Nat → List (List Char) → Gap → Cursor → Except Fault (List Char × Bool × Cursor)
  | 0, done, gap, c => .ok (joinParts done, gap.isBreak, c)
  | rounds + 1, done, gap, c =>
    if c.atDocumentMarker ∨ c.peek = some '#' then .ok (joinParts done, gap.isBreak, c)
    else do
      let word ← plainWord flow c.rest
      if word.isEmpty then return (joinParts done, gap.isBreak, c)
      let done := word :: gap.text :: done
      let c := c.advance word.length
      let (gap, c) ← readGap indent (c.left + 1) (.blanks []) c
      let ended := match gap with
        | .blanks cs => cs.isEmpty
        | .breaks _ _ => !flow && c.column < indent
      if ended then return (joinParts done, gap.isBreak, c)
      readPlainLoop flow indent rounds done gap c

/-- Reads a plain scalar. -/
def readPlain (flow : Bool) (indent : Nat) (c : Cursor) :
    Except Fault (List Char × Bool × Cursor) :=
  readPlainLoop flow indent (c.left + 1) [] (.blanks []) c

/-! ## Quoted scalars -/

/-- The character of an escape code, which names no surrogate and no code beyond Unicode. -/
def charOfCode? (code : Nat) : Option Char :=
  if h : code.isValidChar then some (Char.ofNatAux code h) else none

/-- The character of an escape of one letter. -/
def simpleEscape? : Char → Option Char
  | '0' => some '\x00'
  | 'a' => some '\x07'
  | 'b' => some '\x08'
  | 't' | '\t' => some '\t'
  | 'n' => some '\n'
  | 'v' => some '\x0b'
  | 'f' => some '\x0c'
  | 'r' => some '\r'
  | 'e' => some '\x1b'
  | ' ' => some ' '
  | '"' => some '"'
  | '/' => some '/'
  | '\\' => some '\\'
  | 'N' => some '\x85'
  | '_' => some '\xa0'
  | 'L' => some '\u2028'
  | 'P' => some '\u2029'
  | _ => none

/-- How many digits follow the letter of an escape by code. -/
def escapeDigits? : Char → Option Nat
  | 'x' => some 2
  | 'u' => some 4
  | 'U' => some 8
  | _ => none

/-- The character of an escape from behind its backslash, and how many characters it takes. -/
def readEscape : List Char → Except Fault (Char × Nat)
  | [] => .error .badEscape
  | letter :: rest =>
    match simpleEscape? letter with
    | some c => .ok (c, 1)
    | none =>
      match escapeDigits? letter with
      | none => .error .badEscape
      | some count =>
        let digits := rest.take count
        match (Text.readDigits? 16 digits).bind charOfCode? with
        | some c => if digits.length = count then .ok (c, count + 1) else .error .badEscape
        | none => .error .badEscape

/-- How the words of a quoted scalar end. -/
inductive WordEnd where
  | gap
  | quote
  | escapedBreak

/-- Reads a quoted scalar up to a blank, a line break or the closing quote. -/
def readQuotedWord (single : Bool) :
    Nat → List Char → Cursor → Except Fault (List Char × WordEnd × Cursor)
  | 0, done, c => .ok (done.reverse, .gap, c)
  | rounds + 1, done, c =>
    match c.rest with
    | [] => .ok (done.reverse, .gap, c)
    | first :: rest =>
      if isGap (some first) then .ok (done.reverse, .gap, c)
      else if single then
        if first = '\'' then
          if rest.head? = some '\'' then readQuotedWord single rounds ('\'' :: done) (c.advance 2)
          else .ok (done.reverse, .quote, c)
        else readQuotedWord single rounds (first :: done) (c.advance 1)
      else if first = '"' then .ok (done.reverse, .quote, c)
      else if first = '\\' then
        if rest.head?.any isBreak then .ok (done.reverse, .escapedBreak, (c.advance 1).takeBreak.2)
        else do
          let (escaped, count) ← readEscape rest
          readQuotedWord single rounds (escaped :: done) (c.advance (count + 1))
      else readQuotedWord single rounds (first :: done) (c.advance 1)

/-- Reads a quoted scalar from behind its opening quote. -/
def readQuotedLoop (single : Bool) :
    Nat → List (List Char) → Cursor → Except Fault (List Char × Cursor)
  | 0, _, _ => .error .unexpectedEnd
  | rounds + 1, done, c =>
    if c.atDocumentMarker then .error .documentMarkerInScalar
    else if c.rest.isEmpty then .error .unexpectedEnd
    else do
      let (word, wordEnd, c) ← readQuotedWord single (c.left + 1) [] c
      let closing := if single then '\'' else '"'
      if c.peek = some closing then return (joinParts (word :: done), c.advance 1)
      let start := match wordEnd with
        | .escapedBreak => Gap.breaks [] []
        | _ => Gap.blanks []
      let (gap, c) ← readGap 0 (c.left + 1) start c
      readQuotedLoop single rounds (gap.text :: word :: done) c

/-- Reads a quoted scalar from behind its opening quote. -/
def readQuoted (single : Bool) (c : Cursor) : Except Fault (List Char × Cursor) :=
  readQuotedLoop single (c.left + 1) [] c

/-! ## Block scalars -/

/-- What becomes of the line breaks at the end of a block scalar. -/
inductive Chomping where
  | strip
  | clip
  | keep
  deriving DecidableEq

/-- Reads the sign of a header, if there is one. -/
def readChomping (c : Cursor) : Option Chomping × Cursor :=
  match c.peek with
  | some '+' => (some .keep, c.advance 1)
  | some '-' => (some .strip, c.advance 1)
  | _ => (none, c)

/-- Reads the digit of a header, if there is one. -/
def readIncrement (c : Cursor) : Except Fault (Nat × Cursor) :=
  match c.peek with
  | some digit =>
    if digit = '0' then .error .badIndentationIndicator
    else if digit.isDigit then .ok (digit.toNat - '0'.toNat, c.advance 1)
    else .ok (0, c)
  | none => .ok (0, c)

/-- Reads the header of a block scalar: a sign and a digit in either order. -/
def readBlockHeader (c : Cursor) : Except Fault (Chomping × Nat × Cursor) := do
  match readChomping c with
  | (some chomping, c) =>
    let (increment, c) ← readIncrement c
    return (chomping, increment, c)
  | (none, c) =>
    let (increment, c) ← readIncrement c
    if increment = 0 then return (.clip, 0, c)
    else
      let (chomping, c) := readChomping c
      return (chomping.getD .clip, increment, c)

/-- Reads the indentation and the empty lines in front of a line of a block scalar. An indent of
zero is not known yet; then the widest indentation met is returned. -/
def readBlockBreaks (indent : Nat) :
    Nat → Nat → List Char → Cursor → Except Fault (Nat × List Char × Cursor)
  | 0, widest, breaks, c => .ok (widest, breaks, c)
  | rounds + 1, widest, breaks, c =>
    let blanks := (c.rest.takeWhile (· = ' ')).length
    let c := c.advance (if indent = 0 then blanks else min blanks (indent - c.column))
    let widest := max widest c.column
    if (indent = 0 ∨ c.column < indent) ∧ c.peek = some '\t' then .error .tabInIndentation
    else if c.peek.any isBreak then
      let (lineBreak, c) := c.takeBreak
      readBlockBreaks indent rounds widest (breaks ++ lineBreak) c
    else .ok (widest, breaks, c)

/-- Reads the lines of a block scalar. `leading` is the break in front of the line and `breaks`
the empty lines after it; a line that starts with a blank is not folded. -/
def readBlockLines (literal : Bool) (indent : Nat) :
    Nat → List (List Char) → List Char → List Char → Bool → Cursor →
      Except Fault (List Char × List Char × List Char × Cursor)
  | 0, done, leading, breaks, _, c => .ok (joinParts done, leading, breaks, c)
  | rounds + 1, done, leading, breaks, afterBlank, c =>
    if c.column = indent ∧ !c.rest.isEmpty then do
      let startsBlank := c.peek.any isBlank
      let folded := !literal && leading = ['\n'] && !afterBlank && !startsBlank
      let joint := if folded then (if breaks.isEmpty then [' '] else []) else leading
      let line := c.rest.takeWhile (!isBreak ·)
      let (leading, next) := (c.advance line.length).takeBreak
      let (_, more, next) ← readBlockBreaks indent (next.left + 1) 0 [] next
      readBlockLines literal indent rounds (line :: breaks :: joint :: done) leading more
        startsBlank next
    else .ok (joinParts done, leading, breaks, c)

/-- Reads a block scalar from behind its indicator, inside a block of the given indentation, which
is negative outside of all blocks. -/
def readBlock (literal : Bool) (outer : Int) (c : Cursor) : Except Fault (List Char × Cursor) := do
  let (chomping, increment, c) ← readBlockHeader c
  let c := (c.skipWhile isBlank).skipComment
  if !isLineEnd c.peek then .error .trailingText
  else
    let c := c.takeBreak.2
    let given := if increment = 0 then 0 else (max outer 0).toNat + increment
    let (widest, breaks, c) ← readBlockBreaks given (c.left + 1) 0 [] c
    let indent := if given = 0 then max widest (max (outer + 1) 1).toNat else given
    let (done, leading, breaks, c) ←
      readBlockLines literal indent (c.left + 1) [] [] breaks false c
    let tail := match chomping with
      | .strip => []
      | .clip => leading
      | .keep => leading ++ breaks
    return (done ++ tail, c)

end Conform.Yaml

import Conform.Text.Position

/-!
# Places in a YAML text

A cursor stands in front of the rest of a text and knows its line and column, both counted from
zero, and how many bytes lie before it and how many there are, which bounds the rounds of the loops
over a text. Columns count characters. Five characters break lines; a carriage return and a line
feed together break one. What is read of a line break is a line feed, except for the two separators
of Unicode, which stay themselves.
-/

namespace Conform.Yaml

/-- A place in a text. -/
structure Cursor where
  rest : List Char
  line : Nat
  column : Nat
  /-- How many bytes lie before the place. -/
  index : Nat
  /-- How many bytes the text has. -/
  size : Nat

/-- Whether a character breaks a line. -/
def isBreak (c : Char) : Bool :=
  c = '\n' || c = '\r' || c = '\x85' || c = '\u2028' || c = '\u2029'

/-- A space or a tab. -/
def isBlank (c : Char) : Bool := c = ' ' || c = '\t'

/-- A character of a word, or the end of the text for `none`: whether it is a blank or a break. -/
def isGap : Option Char → Bool
  | none => true
  | some c => isBlank c || isBreak c

/-- Whether the text is over or the line is. -/
def isLineEnd : Option Char → Bool
  | none => true
  | some c => isBreak c

/-- The characters of names of anchors, directives and tag handles. -/
def isNameChar (c : Char) : Bool := c.isAlphanum || c = '_' || c = '-'

/-- The characters a text may consist of: the printable ones, tabs and line breaks. -/
def isAllowed (c : Char) : Bool :=
  let code := c.toNat
  code = 0x9 || code = 0xa || code = 0xd || (0x20 ≤ code && code ≤ 0x7e) || code = 0x85 ||
    (0xa0 ≤ code && code ≤ 0xd7ff) || (0xe000 ≤ code && code ≤ 0xfffd) || 0x10000 ≤ code

namespace Cursor

/-- The start of a text. -/
def start (text : List Char) : Cursor := ⟨text, 0, 0, 0, Text.byteSize text⟩

/-- How many bytes are left, which is no less than the number of characters. -/
def left (c : Cursor) : Nat := c.size - c.index

/-- The character at a distance. -/
def peekAt (c : Cursor) (distance : Nat) : Option Char := c.rest[distance]?

/-- The next character. -/
def peek (c : Cursor) : Option Char := c.rest.head?

/-- The place behind some characters of the same line. -/
def advance (c : Cursor) (count : Nat) : Cursor :=
  { c with
    rest := c.rest.drop count
    column := c.column + count
    index := c.index + Text.byteSize (c.rest.take count) }

/-- The place at the start of the next line, whose break takes some bytes. -/
def nextLine (c : Cursor) (rest : List Char) (bytes : Nat) : Cursor :=
  { c with rest, line := c.line + 1, column := 0, index := c.index + bytes }

/-- The place behind the characters of a class. -/
def skipWhile (p : Char → Bool) (c : Cursor) : Cursor := c.advance (c.rest.takeWhile p).length

/-- The line break in front of the cursor as it is read, and the start of the next line. -/
def takeBreak (c : Cursor) : List Char × Cursor :=
  match c.rest with
  | '\r' :: '\n' :: rest => (['\n'], c.nextLine rest 2)
  | first :: rest =>
    if isBreak first then
      (if first = '\u2028' ∨ first = '\u2029' then [first] else ['\n'], c.nextLine rest first.utf8Size)
    else ([], c)
  | [] => ([], c)

/-- Whether three equal characters and a gap start the line here. -/
def atMarker (mark : Char) (c : Cursor) : Bool :=
  c.column = 0 && c.peek = some mark && c.peekAt 1 = some mark && c.peekAt 2 = some mark &&
    isGap (c.peekAt 3)

/-- Whether a marker of a document's start or end is here. -/
def atDocumentMarker (c : Cursor) : Bool := c.atMarker '-' || c.atMarker '.'

/-- The place behind a comment, if one starts here. -/
def skipComment (c : Cursor) : Cursor :=
  if c.peek = some '#' then c.skipWhile (!isBreak ·) else c

end Cursor

end Conform.Yaml

import Conform.Text.Numeral
import Conform.Yaml.Cursor
import Conform.Yaml.Token

/-!
# Anchors, tags and directives

The properties that a YAML text may put in front of a node, and the directives that it may put in
front of a document.
-/

namespace Conform.Yaml

/-! ## Anchors -/

/-- The characters that may follow a name without a blank between them. -/
def mayFollowName (next : Option Char) : Bool :=
  isGap next || next.any (['?', ':', ',', ']', '}', '%', '@', '\x60'].contains ·)

/-- Reads the name of an anchor or an alias from behind its indicator. -/
def readName (c : Cursor) : Except Fault (String × Cursor) :=
  let name := c.rest.takeWhile isNameChar
  let after := c.advance name.length
  if name.isEmpty ∨ !mayFollowName after.peek then .error .badAnchor
  else .ok (String.ofList name, after)

/-! ## Tags -/

/-- Whether a character may stand in a tag. In brackets more characters may. -/
def isUriChar (bracketed : Bool) (c : Char) : Bool :=
  let marks := [';', '/', '?', ':', '@', '&', '=', '+', '$', '.', '%', '!', '~', '*', '\x27', '(', ')']
  isNameChar c || marks.contains c || (bracketed && [',', '[', ']'].contains c)

/-- The octet of an escape in a tag. -/
def readOctet? : List Char → Option Nat
  | '%' :: high :: low :: _ => Text.readDigits? 16 [high, low]
  | _ => none

/-- How many octets follow the first one of a character. -/
def followers? (octet : Nat) : Option Nat :=
  if octet < 0x80 then some 0
  else if octet / 0x20 = 0x6 then some 1
  else if octet / 0x10 = 0xe then some 2
  else if octet / 0x8 = 0x1e then some 3
  else none

/-- The further octets of a character. -/
def readFollowers? : Nat → List Char → Option Tag
  | 0, _ => some []
  | count + 1, cs => do
    let octet ← readOctet? cs
    if octet / 0x40 = 0x2 then return octet.toUInt8 :: (← readFollowers? count (cs.drop 3))
    else none

/-- The octets of an escaped character. That they have the shape of a character is all that is
asked of them: it may be one that no text contains. -/
def readUriEscape? (cs : List Char) : Option Tag := do
  let octet ← readOctet? cs
  let count ← followers? octet
  return octet.toUInt8 :: (← readFollowers? count (cs.drop 3))

/-- Reads the characters of a tag. -/
def readUriLoop (bracketed : Bool) : Nat → Tag → Cursor → Except Fault (Tag × Cursor)
  | 0, done, c => .ok (done.reverse, c)
  | rounds + 1, done, c =>
    match c.peek with
    | some next =>
      if !isUriChar bracketed next then .ok (done.reverse, c)
      else if next = '%' then
        match readUriEscape? c.rest with
        | some octets =>
          readUriLoop bracketed rounds (octets.reverse ++ done) (c.advance (3 * octets.length))
        | none => .error .badTag
      else readUriLoop bracketed rounds (next.toNat.toUInt8 :: done) (c.advance 1)
    | none => .ok (done.reverse, c)

/-- Reads the characters of a tag. -/
def readUri (bracketed : Bool) (c : Cursor) : Except Fault (Tag × Cursor) :=
  readUriLoop bracketed (c.left + 1) [] c

/-- Reads a handle: an exclamation mark, and a name with another one behind it. -/
def readHandle (c : Cursor) : List Char × Cursor :=
  let after := c.advance 1
  let name := after.rest.takeWhile isNameChar
  let after := after.advance name.length
  if after.peek = some '!' then ('!' :: name ++ ['!'], after.advance 1) else ('!' :: name, after)

/-- Whether a handle is closed by a second exclamation mark. -/
def isClosedHandle (handle : List Char) : Bool :=
  1 < handle.length && handle.getLast? = some '!'

/-- Reads the handle and the suffix of a tag, which ends in front of a zero octet. A tag in
brackets has no handle, nor has the tag that is a single exclamation mark. -/
def readTagParts (c : Cursor) : Except Fault (String × Tag × Cursor) := do
  if c.peekAt 1 = some '<' then
    let (uri, c) ← readUri true (c.advance 2)
    if uri.isEmpty ∨ c.peek ≠ some '>' then .error .badTag
    else return ("", uri.untilZero, c.advance 1)
  else
    let (handle, after) := readHandle c
    let (uri, after) ← readUri false after
    if isClosedHandle handle then
      if uri.isEmpty then .error .badTag
      else return (String.ofList handle, uri.untilZero, after)
    else
      let suffix := (Tag.ofString (String.ofList (handle.drop 1)) ++ uri).untilZero
      if suffix.isEmpty then return ("", .ofString "!", after)
      else return ("!", suffix, after)

/-- Reads a tag, behind which a gap must follow. -/
def readTag (flow : Bool) (c : Cursor) : Except Fault (Token × Cursor) := do
  let (handle, suffix, c) ← readTagParts c
  if isGap c.peek ∨ (flow ∧ c.peek = some ',') then return (.tag handle suffix, c)
  else .error .badTag

/-! ## Directives -/

/-- Reads a part of a version, of at most nine digits. -/
def readVersionPart (c : Cursor) : Except Fault (Nat × Cursor) :=
  let digits := c.rest.takeWhile Char.isDigit
  match Text.readDigits? 10 digits with
  | some n => if digits.length ≤ 9 then .ok (n, c.advance digits.length) else .error .badDirective
  | none => .error .badDirective

/-- Reads the content of a version directive. -/
def readVersion (c : Cursor) : Except Fault (Token × Cursor) := do
  let (major, c) ← readVersionPart (c.skipWhile isBlank)
  if c.peek ≠ some '.' then .error .badDirective
  else
    let (minor, c) ← readVersionPart (c.advance 1)
    return (.version major minor, c)

/-- Reads the content of a tag directive: a handle and what it stands for, up to a zero octet. -/
def readTagDirective (c : Cursor) : Except Fault (Token × Cursor) := do
  let c := c.skipWhile isBlank
  if c.peek ≠ some '!' then .error .badDirective
  else
    let (handle, c) := readHandle c
    if handle ≠ ['!'] ∧ !isClosedHandle handle then .error .badDirective
    else if !c.peek.any isBlank then .error .badDirective
    else
      let (start, c) ← readUri true (c.skipWhile isBlank)
      if start.isEmpty ∨ !isGap c.peek then .error .badDirective
      else return (.tagDirective (String.ofList handle) start.untilZero, c)

/-- Reads a directive to the end of its line. -/
def readDirective (c : Cursor) : Except Fault (Token × Cursor) := do
  let c := c.advance 1
  let name := c.rest.takeWhile isNameChar
  let after := c.advance name.length
  if !isGap after.peek then .error .badDirective
  else
    let (token, after) ←
      if name = ['Y', 'A', 'M', 'L'] then readVersion after
      else if name = ['T', 'A', 'G'] then readTagDirective after
      else .error .badDirective
    let after := (after.skipWhile isBlank).skipComment
    if isLineEnd after.peek then return (token, after.takeBreak.2) else .error .trailingText

end Conform.Yaml

import Conform.Double.Layout
import Conform.Json.Basic

/-!
# Writing JSON

`Json.compact` writes a document without any space and `Json.pretty` with a line for each item and
an indent of two blanks. In strings only what must be escaped is.
-/

namespace Conform

/-- Doubles in JSON are written out from `10^-5` up to `10^16` and always show that they are
no whole numbers: by a point or a power of ten. -/
def Json.Number.layout : Layout := ⟨-5, 16, true, .toEven⟩

/-- The text of a double. One that is not finite has no number in JSON and is null. -/
def Json.Number.floatText : Double → String
  | .finite negative x => layout.signed negative x
  | _ => "null"

/-- The text of a number. -/
def Json.Number.text : Json.Number → String
  | .integer n => toString n
  | .float d => floatText d

namespace Json

/-- A character as it stands in a JSON string. -/
def escapedChar (c : Char) : List Char :=
  match c with
  | '"' => ['\\', '"']
  | '\\' => ['\\', '\\']
  | '\x08' => ['\\', 'b']
  | '\x0c' => ['\\', 'f']
  | '\n' => ['\\', 'n']
  | '\r' => ['\\', 'r']
  | '\t' => ['\\', 't']
  | c =>
    if c.toNat < 0x20 then
      ['\\', 'u', '0', '0', Nat.digitChar (c.toNat / 16), Nat.digitChar (c.toNat % 16)]
    else [c]

/-- A JSON string. -/
def quote (s : String) : String :=
  String.ofList ('"' :: (s.toList.flatMap escapedChar ++ ['"']))

/-- Texts with a comma between them. -/
def commaSeparated (texts : List String) : String := ",".intercalate texts

mutual

/-- The document on one line without spaces. -/
def compact : Json → String
  | .null => "null"
  | .bool b => if b then "true" else "false"
  | .number n => n.text
  | .string s => quote s
  | .array items => "[" ++ commaSeparated (compactItems items) ++ "]"
  | .object members => "\x7b" ++ commaSeparated (compactMembers members) ++ "\x7d"

/-- The texts of the items. -/
def compactItems : List Json → List String
  | [] => []
  | item :: rest => compact item :: compactItems rest

/-- The texts of the members. -/
def compactMembers : List (String × Json) → List String
  | [] => []
  | (name, member) :: rest => (quote name ++ ":" ++ compact member) :: compactMembers rest

end

/-- A list or an object over several lines, its closing bracket at the given indent. -/
def block (opening closing indent : String) (texts : List String) : String :=
  if texts.isEmpty then opening ++ closing
  else
    let inner := indent ++ "  "
    opening ++ "\n" ++ inner ++ (",\n" ++ inner).intercalate texts ++ "\n" ++ indent ++ closing

mutual

/-- The document with a line for each item, set in by an indent. -/
def prettyAt (indent : String) : Json → String
  | .array items => block "[" "]" indent (prettyItems (indent ++ "  ") items)
  | .object members => block "\x7b" "\x7d" indent (prettyMembers (indent ++ "  ") members)
  | .null => "null"
  | .bool b => if b then "true" else "false"
  | .number n => n.text
  | .string s => quote s

/-- The texts of the items at an indent. -/
def prettyItems (indent : String) : List Json → List String
  | [] => []
  | item :: rest => prettyAt indent item :: prettyItems indent rest

/-- The texts of the members at an indent. -/
def prettyMembers (indent : String) : List (String × Json) → List String
  | [] => []
  | (name, member) :: rest =>
    (quote name ++ ": " ++ prettyAt indent member) :: prettyMembers indent rest

end

/-- The document with a line for each item. -/
def pretty (document : Json) : String := prettyAt "" document

end Json

end Conform

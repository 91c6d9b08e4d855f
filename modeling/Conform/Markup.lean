import Conform.Json.Basic
import Conform.Json.Printer
import Conform.Text.Quoted

/-!
# Markup

What a schema document is decoded from: the tree that a JSON or a YAML text describes, before any
meaning is given to it. Members stay in the order of the text, also when a name repeats. In YAML a
member may be named by other things than text, of which only the natural numbers have a meaning.

`Finding` is what is told of a node in an error, and `Mismatch` are the errors themselves, of
decoding a schema document and of reading typed results.
-/

namespace Conform

/-- What is found at a node. -/
inductive Finding where
  | null
  | bool (b : Bool)
  | integer (n : Int)
  | float (d : Double)
  | text (s : String)
  | sequence
  | map
  deriving DecidableEq

/-- What a member is named by. -/
inductive Markup.Key where
  | text (s : String)
  | natural (n : Nat)
  | other (found : Finding)
  deriving DecidableEq

/-- The tree that a text describes. Whole numbers are told apart by whether they are written with a
minus sign. -/
inductive Markup where
  | null
  | bool (b : Bool)
  | natural (n : Nat)
  | negative (n : Nat)
  | float (d : Double)
  | text (s : String)
  | list (items : List Markup)
  | map (members : List (Markup.Key × Markup))

/-- The wording of a finding. -/
def Finding.describe : Finding → String
  | .null => "null"
  | .bool b => "boolean `" ++ (if b then "true" else "false") ++ "`"
  | .integer n => "integer `" ++ toString n ++ "`"
  | .float d => "floating point `" ++ Json.Number.floatText d ++ "`"
  | .text s => "string " ++ Text.quoted s
  | .sequence => "sequence"
  | .map => "map"

/-- How a tree differs from what was to be read from it. -/
inductive Mismatch where
  | wrongType (found : Finding) (expected : String)
  | wrongValue (found : Finding) (expected : String)
  | wrongLength (length : Nat) (expected : String)
  | missingField (name : String)
  | duplicateField (name : String)
  | unknownVariant (name : String) (variants : List String)
  | noVariant (enumeration : String)
  deriving DecidableEq

/-- Texts in backquotes with commas between them. -/
def backquotedList (names : List String) : String :=
  ", ".intercalate (names.map fun name => "`" ++ name ++ "`")

/-- The wording of a mismatch. -/
def Mismatch.message : Mismatch → String
  | .wrongType found expected => "invalid type: " ++ found.describe ++ ", expected " ++ expected
  | .wrongValue found expected => "invalid value: " ++ found.describe ++ ", expected " ++ expected
  | .wrongLength length expected =>
    "invalid length " ++ toString length ++ ", expected " ++ expected
  | .missingField name => "missing field `" ++ name ++ "`"
  | .duplicateField name => "duplicate field `" ++ name ++ "`"
  | .unknownVariant name variants =>
    "unknown variant `" ++ name ++ "`, expected one of " ++ backquotedList variants
  | .noVariant enumeration =>
    "data did not match any variant of untagged enum " ++ enumeration

namespace Markup

/-- What is told of a name. -/
def Key.finding : Key → Finding
  | .text s => .text s
  | .natural n => .integer n
  | .other found => found

/-- What is told of a node. -/
def finding : Markup → Finding
  | .null => .null
  | .bool b => .bool b
  | .natural n => .integer n
  | .negative n => .integer (-n)
  | .float d => .float d
  | .text s => .text s
  | .list _ => .sequence
  | .map _ => .map

mutual

/-- The tree of a JSON document. -/
def ofJson : Json → Markup
  | .null => .null
  | .bool b => .bool b
  | .number (.integer (.ofNat n)) => .natural n
  | .number (.integer (.negSucc n)) => .negative (n + 1)
  | .number (.float d) => .float d
  | .string s => .text s
  | .array items => .list (ofItems items)
  | .object members => .map (ofMembers members)

/-- The trees of the items. -/
def ofItems : List Json → List Markup
  | [] => []
  | item :: rest => ofJson item :: ofItems rest

/-- The trees of the members. -/
def ofMembers : List (String × Json) → List (Key × Markup)
  | [] => []
  | (name, member) :: rest => (.text name, ofJson member) :: ofMembers rest

end

end Markup

/-- What is told of a JSON document. -/
def Json.finding (document : Json) : Finding := (Markup.ofJson document).finding

end Conform

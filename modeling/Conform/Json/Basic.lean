import Conform.Double.Basic

/-!
# JSON documents

A JSON document as a tree. Numbers keep apart whole numbers, which are exact, and the others, which
are doubles; `Json.Valid` says which trees a program can hold: whole numbers of 64 bits, finite
doubles, and no name twice in an object.
-/

namespace Conform

/-- A number in a JSON document. -/
inductive Json.Number where
  | integer (n : Int)
  | float (d : Double)
  deriving DecidableEq

/-- A JSON document. Objects keep their members in the order of the text. -/
inductive Json where
  | null
  | bool (b : Bool)
  | number (n : Json.Number)
  | string (s : String)
  | array (items : List Json)
  | object (members : List (String × Json))

/-- A whole number of 64 bits, with or without a sign, or a finite double. -/
def Json.Number.Valid : Json.Number → Prop
  | .integer n => -9223372036854775808 ≤ n ∧ n < 18446744073709551616
  | .float d => d.isFinite

namespace Json

mutual

/-- Every number is in range and no object has a name twice. -/
def Valid : Json → Prop
  | .number n => n.Valid
  | .array items => ValidItems items
  | .object members => (members.map Prod.fst).Nodup ∧ ValidMembers members
  | _ => True

/-- Every item is valid. -/
def ValidItems : List Json → Prop
  | [] => True
  | item :: rest => item.Valid ∧ ValidItems rest

/-- Every member is valid. -/
def ValidMembers : List (String × Json) → Prop
  | [] => True
  | (_, member) :: rest => member.Valid ∧ ValidMembers rest

end

end Json

end Conform

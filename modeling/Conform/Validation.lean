import Conform.Json.Basic
import Conform.Text.Numeral
import Conform.Value.Basic

/-!
# Validation trees and messages

A validation tree runs beside a result and tells where validation failed: a leaf holds the error
of a node's own check, a list or a map holds a tree for each child, and clean means that nothing
failed. The errors are also told one after another in messages, each with the path of its place
from the root, such as `root.items[2].name`.

Steps into a tree never fail. Below a clean node everything is clean, and a leaf stands for all
that is below it.
-/

namespace Conform

/-- The tree of errors of a validated node. -/
inductive Validation where
  | clean
  | leaf (error : String)
  | list (items : List Validation)
  | map (entries : List (String × Validation))

/-- An error and the path of its place. -/
structure Message where
  path : String
  error : String
  deriving DecidableEq

/-- The messages so far. -/
abbrev Log := Array Message

/-- The line of a message. -/
def Message.line (m : Message) : String := m.path ++ ": " ++ m.error

/-- The lines of messages. -/
def Log.report (log : Log) : String := "\n".intercalate (log.toList.map Message.line)

namespace Validation

/-- The tree under a name. In a list the name is read as a position. -/
def prop (name : String) : Validation → Validation
  | .clean => .clean
  | .leaf error => .leaf error
  | .map entries => (Entries.get? name entries).getD .clean
  | .list items => ((Text.readPosition? name).bind (items[·]?)).getD .clean

/-- The tree at a position. -/
def index (position : Nat) : Validation → Validation
  | .leaf error => .leaf error
  | .list items => (items[position]?).getD .clean
  | .clean | .map _ => .clean

/-- The error of a leaf. -/
def leaf? : Validation → Option String
  | .leaf error => some error
  | _ => none

mutual

/-- Whether there is a leaf at the node or below it. -/
def hasErrors : Validation → Bool
  | .clean => false
  | .leaf _ => true
  | .list items => itemsHaveErrors items
  | .map entries => entriesHaveErrors entries

/-- Whether one of the items has errors. -/
def itemsHaveErrors : List Validation → Bool
  | [] => false
  | item :: rest => hasErrors item || itemsHaveErrors rest

/-- Whether one of the entries has errors. -/
def entriesHaveErrors : List (String × Validation) → Bool
  | [] => false
  | (_, entry) :: rest => hasErrors entry || entriesHaveErrors rest

end

mutual

/-- The errors of all leaves, each node before its children and these from left to right. -/
def leaves : Validation → List String
  | .clean => []
  | .leaf error => [error]
  | .list items => itemsLeaves items
  | .map entries => entriesLeaves entries

/-- The errors in the items. -/
def itemsLeaves : List Validation → List String
  | [] => []
  | item :: rest => leaves item ++ itemsLeaves rest

/-- The errors in the entries. -/
def entriesLeaves : List (String × Validation) → List String
  | [] => []
  | (_, entry) :: rest => leaves entry ++ entriesLeaves rest

end

mutual

/-- The tree as JSON: null, the text of the error, a list or an object. -/
def toJson : Validation → Json
  | .clean => .null
  | .leaf error => .string error
  | .list items => .array (itemsToJson items)
  | .map entries => .object (entriesToJson entries)

/-- The items as JSON. -/
def itemsToJson : List Validation → List Json
  | [] => []
  | item :: rest => toJson item :: itemsToJson rest

/-- The entries as JSON. -/
def entriesToJson : List (String × Validation) → List (String × Json)
  | [] => []
  | (key, entry) :: rest => (key, toJson entry) :: entriesToJson rest

end

end Validation

/-- A message as JSON. -/
def Message.toJson (m : Message) : Json :=
  .object [("path", .string m.path), ("err", .string m.error)]

end Conform

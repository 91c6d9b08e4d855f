import Conform.Json.Basic
import Conform.Schema.Basic

/-!
# Schema documents

A schema described as data. Each node is an object with a `type`, the fields of that type, and the
flags `nullable` and `optional`. A document is freer than a schema: its unions have any number of
members, its parsers are names, and the keys of its records are any documents. `Document.build`
turns a document that is well-formed in these respects into a schema.
-/

namespace Conform

/-- A schema document. -/
inductive Document where
  | primitive (p : Primitive) (modifiers : Modifiers)
  | options (values : List Literal) (modifiers : Modifiers)
  | parser (name : String) (modifiers : Modifiers)
  | union (members : List Document) (modifiers : Modifiers)
  | array (items : Document) (modifiers : Modifiers)
  | tuple (items : List Document) (modifiers : Modifiers)
  | object (properties : List (String × Document)) (modifiers : Modifiers)
  | record (keys values : Document) (modifiers : Modifiers)

/-- A literal as JSON. Number literals are doubles, also the whole ones; one that is not finite is
null. -/
def Literal.toJson : Literal → Json
  | .string s => .string s
  | .number d => if d.isFinite then .number (.float d) else .null

namespace Document

/-- The flags of a document. -/
def modifiers : Document → Modifiers
  | .primitive _ m | .options _ m | .parser _ m | .union _ m | .array _ m | .tuple _ m
  | .object _ m | .record _ _ m => m

/-- A node as JSON: its type, its fields, and its flags. -/
def nodeToJson (type : String) (fields : List (String × Json)) (m : Modifiers) : Json :=
  .object (("type", .string type) :: fields ++
    [("nullable", .bool m.nullable), ("optional", .bool m.optional)])

mutual

/-- A document as JSON. -/
def toJson : Document → Json
  | .primitive p m => nodeToJson p.name [] m
  | .options values m => nodeToJson "options" [("values", .array (values.map Literal.toJson))] m
  | .parser name m => nodeToJson "parser" [("name", .string name)] m
  | .union members m => nodeToJson "union" [("members", .array (itemsToJson members))] m
  | .array items m => nodeToJson "array" [("items", toJson items)] m
  | .tuple items m => nodeToJson "tuple" [("items", .array (itemsToJson items))] m
  | .object properties m =>
    nodeToJson "object" [("properties", .object (propertiesToJson properties))] m
  | .record keys values m =>
    nodeToJson "record" [("keys", toJson keys), ("values", toJson values)] m

/-- Several documents as JSON. -/
def itemsToJson : List Document → List Json
  | [] => []
  | document :: rest => toJson document :: itemsToJson rest

/-- The documents of properties as JSON. -/
def propertiesToJson : List (String × Document) → List (String × Json)
  | [] => []
  | (name, document) :: rest => (name, toJson document) :: propertiesToJson rest

end

end Document

end Conform

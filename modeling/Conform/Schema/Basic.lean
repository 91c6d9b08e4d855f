import Conform.Parser

/-!
# Schemas

The grammar of schemas. A schema is a check and two modifiers, which say whether null and absence
are accepted in place of what the check takes. The checks of single values are primitive types,
closed lists of literals, and parsers; the others are made of schemas: unions of two or three,
lists, tuples, objects with declared properties, and records, whose keys have a check of their own.

What a schema accepts is in `Conform.Walk`.
-/

namespace Conform

/-- A primitive type. The last two accept everything that is neither null nor absent. -/
inductive Primitive where
  | string
  | number
  | boolean
  | unknown
  | any
  deriving DecidableEq

/-- One of the values of a closed list. -/
inductive Literal where
  | string (s : String)
  | number (d : Double)
  deriving DecidableEq

/-- What is accepted besides what the check takes. -/
structure Modifiers where
  /-- Null is accepted, as null. -/
  nullable : Bool
  /-- Absence is accepted, as absence. -/
  optional : Bool
  deriving DecidableEq

/-- The check of a record's keys, which are strings. -/
inductive KeyCheck where
  | primitive (p : Primitive)
  | options (literals : List Literal)
  deriving DecidableEq

/-- The check of a single value. -/
inductive LeafCheck where
  | primitive (p : Primitive)
  | options (literals : List Literal)
  | parser (p : Parser)

/-- A schema. -/
inductive Schema where
  | leaf (check : LeafCheck) (modifiers : Modifiers)
  | union (first second : Schema) (third : Option Schema) (modifiers : Modifiers)
  | array (element : Schema) (modifiers : Modifiers)
  | tuple (items : List Schema) (modifiers : Modifiers)
  | object (properties : List (String × Schema)) (modifiers : Modifiers)
  | record (keys : KeyCheck) (values : Schema) (modifiers : Modifiers)

namespace Primitive

/-- The name of the type. -/
def name : Primitive → String
  | .string => "string"
  | .number => "number"
  | .boolean => "boolean"
  | .unknown => "unknown"
  | .any => "any"

/-- Whether a value is of the type. -/
def accepts : Primitive → Value → Bool
  | .string, .string _ => true
  | .number, .number _ => true
  | .boolean, .bool _ => true
  | .unknown, _ => true
  | .any, _ => true
  | _, _ => false

end Primitive

namespace Literal

/-- The literal as a value. -/
def toValue : Literal → Value
  | .string s => .string s
  | .number d => .number d

/-- Whether a value is the literal: the text of a number is not the number. -/
def accepts (l : Literal) (input : Value) : Bool := l.toValue.strictEq input

/-- The text of the literal. -/
def toText : Literal → String
  | .string s => s
  | .number d => d.toText

end Literal

/-- Neither null nor absence. -/
def Modifiers.none : Modifiers := ⟨false, false⟩

/-- A check of keys as a check of single values. -/
def KeyCheck.toLeaf : KeyCheck → LeafCheck
  | .primitive p => .primitive p
  | .options literals => .options literals

namespace Schema

/-- The modifiers of a schema. -/
def modifiers : Schema → Modifiers
  | .leaf _ m | .union _ _ _ m | .array _ m | .tuple _ m | .object _ m | .record _ _ m => m

/-- The schema with the same check under other modifiers. -/
def withModifiers (m : Modifiers) : Schema → Schema
  | .leaf check _ => .leaf check m
  | .union first second third _ => .union first second third m
  | .array element _ => .array element m
  | .tuple items _ => .tuple items m
  | .object properties _ => .object properties m
  | .record keys values _ => .record keys values m

/-- The schema that also accepts null. -/
def nullable (s : Schema) : Schema := s.withModifiers { s.modifiers with nullable := true }

/-- The schema that also accepts absence. -/
def optional (s : Schema) : Schema := s.withModifiers { s.modifiers with optional := true }

/-- The members of a union, in order. -/
def unionMembers (first second : Schema) (third : Option Schema) : List Schema :=
  first :: second :: third.toList

/-- The name of the kind of check. -/
def kind : Schema → String
  | .leaf (.primitive p) _ => p.name
  | .leaf (.options _) _ => "options"
  | .leaf (.parser _) _ => "parser"
  | .union .. => "union"
  | .array .. => "array"
  | .tuple .. => "tuple"
  | .object .. => "object"
  | .record .. => "record"

mutual

/-- The number of nodes. The check of a record's keys is one of them. -/
def nodeCount : Schema → Nat
  | .leaf _ _ => 1
  | .union first second third _ => 1 + (nodeCount first + nodeCount second + optionNodeCount third)
  | .array element _ => 1 + nodeCount element
  | .tuple items _ => 1 + itemsNodeCount items
  | .object properties _ => 1 + propertiesNodeCount properties
  | .record _ values _ => 1 + (1 + nodeCount values)

/-- The number of nodes of a schema that may be missing. -/
def optionNodeCount : Option Schema → Nat
  | none => 0
  | some s => nodeCount s

/-- The number of nodes of several schemas. -/
def itemsNodeCount : List Schema → Nat
  | [] => 0
  | s :: rest => nodeCount s + itemsNodeCount rest

/-- The number of nodes of the properties' schemas. -/
def propertiesNodeCount : List (String × Schema) → Nat
  | [] => 0
  | (_, s) :: rest => nodeCount s + propertiesNodeCount rest

end

/-! ## Schemas by hand -/

/-- A schema of a primitive type. -/
def primitive (p : Primitive) : Schema := .leaf (.primitive p) .none

/-- A closed list of literals. -/
def options (literals : List Literal) : Schema := .leaf (.options literals) .none

/-- A custom check. -/
def parser (p : Parser) : Schema := .leaf (.parser p) .none

/-- Either of two schemas; the first that accepts a value gives the result. -/
def union2 (first second : Schema) : Schema := .union first second Option.none .none

/-- Any of three schemas. -/
def union3 (first second third : Schema) : Schema := .union first second (some third) .none

/-- A list of elements under one schema. -/
def listOf (element : Schema) : Schema := .array element .none

/-- A list of exactly these items. -/
def tupleOf (items : List Schema) : Schema := .tuple items .none

/-- An object with the given properties, in order; of two under one name the later counts. -/
def objectOf (properties : List (String × Schema)) : Schema :=
  .object (Entries.ofList properties) .none

/-- An object with any keys and values that pass their checks. -/
def recordOf (keys : KeyCheck) (values : Schema) : Schema := .record keys values .none

end Schema

end Conform

import Conform.Schema.Basic
import Conform.Text.Quoted

/-!
# Schemas in type notation

A schema on one line, in the notation of types: alternatives between bars, lists with brackets
behind the element, objects between braces.
-/

namespace Conform

/-- A literal in type notation. Strings are quoted, so that `"1"` and `1` differ. -/
def Literal.typeText : Literal → String
  | .string s => Text.quoted s
  | .number d => d.toText

/-- A check of single values in type notation. -/
def LeafCheck.typeText : LeafCheck → String
  | .primitive p => p.name
  | .options literals => " | ".intercalate (literals.map Literal.typeText)
  | .parser p => "parser(" ++ p.label.getD "?" ++ ")"

/-- The alternatives that the modifiers add. -/
def Modifiers.typeText (m : Modifiers) : String :=
  (if m.nullable then " | null" else "") ++ (if m.optional then " | undefined" else "")

namespace Schema

mutual

/-- A schema in type notation. -/
def typeText : Schema → String
  | .leaf check m => check.typeText ++ m.typeText
  | .union first second third m =>
    "(" ++ typeText first ++ " | " ++ typeText second ++ thirdText third ++ ")" ++ m.typeText
  | .array element m => typeText element ++ "[]" ++ m.typeText
  | .tuple items m => "[" ++ ", ".intercalate (itemTexts items) ++ "]" ++ m.typeText
  | .object properties m =>
    "\x7b" ++ ", ".intercalate (propertyTexts properties) ++ "\x7d" ++ m.typeText
  | .record keys values m =>
    "record<" ++ keys.toLeaf.typeText ++ ", " ++ typeText values ++ ">" ++ m.typeText

/-- The third alternative of a union, behind its bar. -/
def thirdText : Option Schema → String
  | none => ""
  | some s => " | " ++ typeText s

/-- The items of a tuple. -/
def itemTexts : List Schema → List String
  | [] => []
  | s :: rest => typeText s :: itemTexts rest

/-- The properties of an object. -/
def propertyTexts : List (String × Schema) → List String
  | [] => []
  | (name, s) :: rest => (name ++ ": " ++ typeText s) :: propertyTexts rest

end

/-- A line about the schema of a file: the kind of its root and how many nodes it has. -/
def summary (file : String) (s : Schema) : String :=
  let count := s.nodeCount
  file ++ " (" ++ s.kind ++ ", " ++ toString count ++ " node" ++
    (if count = 1 then "" else "s") ++ ")"

end Schema

end Conform

import Conform.Document.Basic

/-!
# Building schemas

`Document.build` turns a document into a schema, with the parsers of a registry for the names in
it. It stops at the first node that has no schema, in the order of the document and children
first, and tells the node by its path from the root `$`.
-/

namespace Conform

/-- Why a document has no schema. -/
inductive BuildFault where
  | unionArity (path : String) (found : Nat)
  | recordKey (path reason : String)
  | unknownParser (name path : String)
  deriving DecidableEq

/-- The wording of a fault. -/
def BuildFault.message : BuildFault → String
  | .unionArity path found =>
    "union at '" ++ path ++ "' has " ++ toString found ++ " members; expected 2 or 3"
  | .recordKey path reason =>
    "record at '" ++ path ++ "' has an invalid key schema: " ++ reason
  | .unknownParser name path => "parser '" ++ name ++ "' at '" ++ path ++ "' is not registered"

namespace Document

/-- The check of a record's keys. Only primitive types and options serve, and no modifiers. -/
def keyCheck (document : Document) (path : String) : Except BuildFault KeyCheck :=
  if document.modifiers ≠ .none then
    .error (.recordKey path "key schemas cannot be nullable or optional")
  else
    match document with
    | .primitive p _ => .ok (.primitive p)
    | .options values _ => .ok (.options values)
    | _ => .error (.recordKey path "expected a primitive or options node")

/-- The union of the members, if there are two or three. -/
def unionOf (path : String) (m : Modifiers) : List Schema → Except BuildFault Schema
  | [first, second] => .ok (.union first second none m)
  | [first, second, third] => .ok (.union first second (some third) m)
  | members => .error (.unionArity path members.length)

mutual

/-- The schema of a document at a path. -/
def buildAt (registry : Registry) (path : String) : Document → Except BuildFault Schema
  | .primitive p m => .ok (.leaf (.primitive p) m)
  | .options values m => .ok (.leaf (.options values) m)
  | .parser name m =>
    match registry.get? name with
    | some p => .ok (.leaf (.parser p) m)
    | none => .error (.unknownParser name path)
  | .union members m => do unionOf path m (← buildItems registry (path ++ ".members") 0 members)
  | .array items m => do return .array (← buildAt registry (path ++ ".items") items) m
  | .tuple items m => do return .tuple (← buildItems registry (path ++ ".items") 0 items) m
  | .object properties m => do
    return .object (← buildProperties registry (path ++ ".properties") properties) m
  | .record keys values m => do
    let check ← keys.keyCheck (path ++ ".keys")
    return .record check (← buildAt registry (path ++ ".values") values) m

/-- The schemas of the documents in a list, from a position on. -/
def buildItems (registry : Registry) (path : String) (position : Nat) :
    List Document → Except BuildFault (List Schema)
  | [] => .ok []
  | document :: rest => do
    let schema ← buildAt registry (path ++ "[" ++ toString position ++ "]") document
    return schema :: (← buildItems registry path (position + 1) rest)

/-- The schemas of properties. -/
def buildProperties (registry : Registry) (path : String) :
    List (String × Document) → Except BuildFault (List (String × Schema))
  | [] => .ok []
  | (name, document) :: rest => do
    let schema ← buildAt registry (path ++ "." ++ name) document
    return (name, schema) :: (← buildProperties registry path rest)

end

/-- The schema of a document. -/
def build (registry : Registry) (document : Document) : Except BuildFault Schema :=
  document.buildAt registry "$"

end Document

end Conform

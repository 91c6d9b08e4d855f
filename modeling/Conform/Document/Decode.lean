import Conform.Document.Basic
import Conform.Markup
import Conform.Double.Round

/-!
# Decoding schema documents

A document is decoded from a tree of markup. A node is a map; its members may be in any order, and
members that the node's type does not know are left aside. What is wrong is found in a fixed order:
first what is wrong with the type, then with the fields of that type in the order of the text, then
the fields that are missing, and last what is wrong with the flags. A child is decoded when its
field is met.
-/

namespace Conform

/-- The type of a node. -/
inductive DocumentType where
  | primitive (p : Primitive)
  | options
  | parser
  | union
  | array
  | tuple
  | object
  | record
  deriving DecidableEq

/-- What a field holds. -/
inductive FieldShape where
  | literals
  | name
  | document
  | documents
  | properties
  deriving DecidableEq

/-- The content of a field. -/
inductive FieldContent where
  | literals (literals : List Literal)
  | name (name : String)
  | document (document : Document)
  | documents (documents : List Document)
  | properties (properties : List (String × Document))

namespace DocumentType

/-- The types, in the order in which a number stands for one. -/
def all : List DocumentType :=
  [.primitive .string, .primitive .number, .primitive .boolean, .primitive .unknown,
    .primitive .any, .options, .parser, .union, .array, .tuple, .object, .record]

/-- The name of a type. -/
def name : DocumentType → String
  | .primitive p => p.name
  | .options => "options"
  | .parser => "parser"
  | .union => "union"
  | .array => "array"
  | .tuple => "tuple"
  | .object => "object"
  | .record => "record"

/-- The fields of a type. -/
def fields : DocumentType → List (String × FieldShape)
  | .primitive _ => []
  | .options => [("values", .literals)]
  | .parser => [("name", .name)]
  | .union => [("members", .documents)]
  | .array => [("items", .document)]
  | .tuple => [("items", .documents)]
  | .object => [("properties", .properties)]
  | .record => [("keys", .document), ("values", .document)]

/-- The field that a member stands for, by its name or by its position among the fields. -/
def field? (type : DocumentType) : Markup.Key → Option (String × FieldShape)
  | .text s => type.fields.find? (·.1 == s)
  | .natural n => type.fields[n]?
  | .other _ => none

/-- The type that a member tells, by its name or its number. -/
def decode : Markup → Except Mismatch DocumentType
  | .text s =>
    match all.find? (·.name == s) with
    | some type => .ok type
    | none => .error (.unknownVariant s (all.map name))
  | .natural n =>
    match all[n]? with
    | some type => .ok type
    | none => .error (.wrongValue (.integer n) "variant index 0 <= i < 12")
  | tree => .error (.wrongType tree.finding "variant identifier")

/-- Looks for the type among the members of a node. -/
def search (found : Option DocumentType) :
    List (Markup.Key × Markup) → Except Mismatch DocumentType
  | [] =>
    match found with
    | some type => .ok type
    | none => .error (.missingField "type")
  | (key, value) :: rest =>
    if key = .text "type" then
      if found.isSome then .error (.duplicateField "type")
      else do search (some (← decode value)) rest
    else search found rest

end DocumentType

/-- A literal, a string or a number. -/
def Literal.decode : Markup → Except Mismatch Literal
  | .text s => .ok (.string s)
  | .natural n => .ok (.number (.ofNat n))
  | .negative n => .ok (.number (.ofInt (-n)))
  | .float d => .ok (.number d)
  | _ => .error (.noVariant "Literal")

/-- A list of literals. -/
def Literal.decodeList : Markup → Except Mismatch (List Literal)
  | .list items => items.mapM Literal.decode
  | tree => .error (.wrongType tree.finding "a sequence")

namespace Document

/-- Every member has a name or a number. -/
def checkKeys : List (Markup.Key × Markup) → Except Mismatch Unit
  | [] => .ok ()
  | (.other found, _) :: _ => .error (.wrongType found "field identifier")
  | _ :: rest => checkKeys rest

/-- A text. -/
def decodeText : Markup → Except Mismatch String
  | .text s => .ok s
  | tree => .error (.wrongType tree.finding "a string")

/-- The truth value of a flag. -/
def decodeFlag : Markup → Except Mismatch Bool
  | .bool b => .ok b
  | tree => .error (.wrongType tree.finding "a boolean")

/-- The flags among the members of a node. One that is not there is false. -/
def decodeModifiers (nullable optional : Option Bool) :
    List (Markup.Key × Markup) → Except Mismatch Modifiers
  | [] => .ok ⟨nullable.getD false, optional.getD false⟩
  | (key, value) :: rest =>
    if key = .text "nullable" then
      if nullable.isSome then .error (.duplicateField "nullable")
      else do decodeModifiers (some (← decodeFlag value)) optional rest
    else if key = .text "optional" then
      if optional.isSome then .error (.duplicateField "optional")
      else do decodeModifiers nullable (some (← decodeFlag value)) rest
    else decodeModifiers nullable optional rest

/-- The content of a field, if it is there. -/
def content (fields : List (String × FieldContent)) (name : String) :
    Except Mismatch FieldContent :=
  match Entries.get? name fields with
  | some found => .ok found
  | none => .error (.missingField name)

/-- The document of a type with its fields and flags. -/
def assemble (type : DocumentType) (fields : List (String × FieldContent)) :
    Except Mismatch (Modifiers → Document) := do
  match type with
  | .primitive p => return .primitive p
  | .options =>
    match ← content fields "values" with
    | .literals literals => return .options literals
    | _ => .error (.missingField "values")
  | .parser =>
    match ← content fields "name" with
    | .name name => return .parser name
    | _ => .error (.missingField "name")
  | .union =>
    match ← content fields "members" with
    | .documents members => return .union members
    | _ => .error (.missingField "members")
  | .array =>
    match ← content fields "items" with
    | .document items => return .array items
    | _ => .error (.missingField "items")
  | .tuple =>
    match ← content fields "items" with
    | .documents items => return .tuple items
    | _ => .error (.missingField "items")
  | .object =>
    match ← content fields "properties" with
    | .properties properties => return .object properties
    | _ => .error (.missingField "properties")
  | .record =>
    match ← content fields "keys", ← content fields "values" with
    | .document keys, .document values => return .record keys values
    | _, _ => .error (.missingField "keys")

mutual

/-- The document that a tree describes. -/
def decode : Markup → Except Mismatch Document
  | .map members => do
    checkKeys members
    let type ← DocumentType.search none members
    let fields ← decodeFields type [] members
    let document ← assemble type fields
    return document (← decodeModifiers none none members)
  | tree => .error (.wrongType tree.finding "struct SchemaDocument")

/-- The fields of a type among the members of a node. -/
def decodeFields (type : DocumentType) (done : List (String × FieldContent)) :
    List (Markup.Key × Markup) → Except Mismatch (List (String × FieldContent))
  | [] => .ok done
  | (key, value) :: rest =>
    match type.field? key with
    | none => decodeFields type done rest
    | some (name, shape) =>
      if Entries.contains name done then .error (.duplicateField name)
      else do
        let found ← match shape with
          | .literals => (Literal.decodeList value).map .literals
          | .name => (decodeText value).map .name
          | .document => (decode value).map .document
          | .documents =>
            match value with
            | .list items => (decodeItems items).map .documents
            | tree => .error (.wrongType tree.finding "a sequence")
          | .properties =>
            match value with
            | .map members => (decodeProperties [] members).map .properties
            | tree => .error (.wrongType tree.finding "a map")
        decodeFields type (done ++ [(name, found)]) rest

/-- The documents in a list. -/
def decodeItems : List Markup → Except Mismatch (List Document)
  | [] => .ok []
  | item :: rest => do
    let document ← decode item
    return document :: (← decodeItems rest)

/-- The documents of properties. Of two with the same name the later counts, in the place of the
first. -/
def decodeProperties (done : List (String × Document)) :
    List (Markup.Key × Markup) → Except Mismatch (List (String × Document))
  | [] => .ok done
  | (key, value) :: rest =>
    match key with
    | .text name => do
      let document ← decode value
      decodeProperties (Entries.insert name document done) rest
    | key => .error (.wrongType key.finding "a string")

end

end Document

end Conform

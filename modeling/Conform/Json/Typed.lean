import Conform.Double.Round
import Conform.Markup

/-!
# Reading typed data from JSON

Readers for the types that a caller may ask a result to be: texts, flags, numbers within bounds,
lists, pairs, and records, whose fields may be given by name or by position. A reader either takes
all of its document or tells the first mismatch.
-/

namespace Conform.Json

/-- A reader of typed data. -/
abbrev Typed (α : Type) := Json → Except Mismatch α

/-- The mismatch of a document that is not of an expected type. -/
def unexpected {α : Type} (document : Json) (expected : String) : Except Mismatch α :=
  .error (.wrongType document.finding expected)

/-- Any document. -/
def readAny : Typed Json := .ok

/-- A string. -/
def readText : Typed String
  | .string s => .ok s
  | document => unexpected document "a string"

/-- A truth value. -/
def readFlag : Typed Bool
  | .bool b => .ok b
  | document => unexpected document "a boolean"

/-- An integer from `low` up to `high`, called by the name of its type. -/
def readIntegerIn (low high : Int) (type : String) : Typed Int
  | .number (.integer n) =>
    if low ≤ n ∧ n ≤ high then .ok n else .error (.wrongValue (.integer n) type)
  | document => unexpected document type

/-- A double, called by the name of its type. -/
def readDouble (type : String) : Typed Double
  | .number (.integer n) => .ok (.ofInt n)
  | .number (.float d) => .ok d
  | document => unexpected document type

/-- Null, or data of a type. -/
def readOption {α : Type} (read : Typed α) : Typed (Option α)
  | .null => .ok none
  | document => (read document).map some

/-- A list of data of a type. -/
def readList {α : Type} (read : Typed α) : Typed (List α)
  | .array items => items.mapM read
  | document => unexpected document "a sequence"

/-- Two data, in a list. -/
def readPair {α β : Type} (first : Typed α) (second : Typed β) : Typed (α × β)
  | .array [] => .error (.wrongLength 0 "a tuple of size 2")
  | .array [a] => do
    let _ ← first a
    .error (.wrongLength 1 "a tuple of size 2")
  | .array (a :: b :: rest) => do
    let pair := (← first a, ← second b)
    if rest.isEmpty then return pair
    else .error (.wrongLength (rest.length + 2) "fewer elements in array")
  | document => unexpected document "a tuple of size 2"

/-- A field of a record that is read into a state. -/
structure Field (σ : Type) where
  name : String
  /-- Reads the field into the state. -/
  read : σ → Json → Except Mismatch σ
  /-- The field may be missing among named fields. -/
  optional : Bool
  /-- The field may be missing at the end of a list. -/
  defaulted : Bool

/-- The fields by name, in the order of the members; others are left aside. Of the fields that are
missing the first that is needed is told. -/
def readNamed {σ : Type} (fields : List (Field σ)) (state : σ) (members : List (String × Json)) :
    Except Mismatch σ := do
  let state ← members.foldlM (fun state (name, member) =>
    match fields.find? (·.name == name) with
    | some field => field.read state member
    | none => .ok state) state
  match fields.find? fun field => !field.optional && !(members.any (·.1 == field.name)) with
  | some field => .error (.missingField field.name)
  | none => return state

/-- The fields by position. -/
def readPositional {σ : Type} (expected : String) (length : Nat) :
    Nat → List (Field σ) → σ → List Json → Except Mismatch σ
  | _, [], state, rest =>
    if rest.isEmpty then .ok state else .error (.wrongLength length "fewer elements in array")
  | position, field :: fields, state, [] =>
    if field.defaulted then readPositional expected length (position + 1) fields state []
    else .error (.wrongLength position expected)
  | position, field :: fields, state, item :: rest => do
    readPositional expected length (position + 1) fields (← field.read state item) rest

/-- A record of the given title. -/
def readRecord {σ : Type} (title : String) (fields : List (Field σ)) (state : σ) : Typed σ
  | .object members => readNamed fields state members
  | .array items =>
    let expected := "struct " ++ title ++ " with " ++ toString fields.length ++ " elements"
    readPositional expected items.length 0 fields state items
  | document => unexpected document ("struct " ++ title)

end Conform.Json

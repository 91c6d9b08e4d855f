import Conform.Json.Writer
import Conform.Value.Basic

/-!
# Values as JSON

`Value.ofJson` reads a JSON document as a value; no part of the result is absent. `Value.toJson`
goes the other way, and `Value.jsonText` writes the text of a value at once. Both leave out the
absent entries of objects and have null for what is absent elsewhere. JSON has no number for a
double that is not finite: `toJson` fails on the first such number and `jsonText` writes null.
-/

namespace Conform

/-- A double that JSON cannot hold. -/
structure NonFinite where
  number : Double
  deriving DecidableEq

/-- The wording of the failure. -/
def NonFinite.message (e : NonFinite) : String :=
  let text := match e.number with
    | .infinity negative => if negative then "-inf" else "inf"
    | other => other.toText
  "number " ++ text ++ " cannot be represented in JSON"

namespace Value

/-- A finite double in JSON: an integer if it is whole and below `2^53` in magnitude, so that `1`
does not become `1.0`. -/
def numberOfMagnitude (negative : Bool) (x : Magnitude) : Json.Number :=
  if x.isIntegral ∧ x.floor < 1 <<< 53 then
    .integer (if negative then -x.floor else x.floor)
  else .float (.finite negative x)

/-- A double as a number in JSON. -/
def jsonNumber : Double → Except NonFinite Json.Number
  | .finite negative x => .ok (numberOfMagnitude negative x)
  | other => .error ⟨other⟩

mutual

/-- The JSON document of a value, or its first number that is not finite. -/
def toJson : Value → Except NonFinite Json
  | .undefined => .ok .null
  | .null => .ok .null
  | .bool b => .ok (.bool b)
  | .number d => (jsonNumber d).map .number
  | .string s => .ok (.string s)
  | .array items => (itemsToJson items).map .array
  | .object entries => (entriesToJson entries).map .object

/-- The documents of the items of a list. -/
def itemsToJson : List Value → Except NonFinite (List Json)
  | [] => .ok []
  | item :: rest => do
    let document ← toJson item
    let documents ← itemsToJson rest
    return document :: documents

/-- The members for the entries of an object that are not absent. -/
def entriesToJson : List (String × Value) → Except NonFinite (List (String × Json))
  | [] => .ok []
  | (_, .undefined) :: rest => entriesToJson rest
  | (key, value) :: rest => do
    let document ← toJson value
    let members ← entriesToJson rest
    return (key, document) :: members

end

/-- The whole number that a double is, if it is one below `2^53` in magnitude. -/
def smallInteger? : Double → Option Int
  | .finite negative x =>
    if x.isIntegral ∧ x.floor < 1 <<< 53 then some (if negative then -x.floor else x.floor)
    else none
  | _ => none

/-- The JSON text of a double: that of a whole number if it is one below `2^53` in magnitude, and
else whatever a double has, which is null if it is not finite. -/
def numberText (d : Double) : String :=
  match smallInteger? d with
  | some n => toString n
  | none => Json.Number.floatText d

/-- How many of the entries are not absent. -/
def definedCount (entries : List (String × Value)) : Nat :=
  ((Entries.values entries).filter fun value => !value.isUndefined).length

mutual

/-- The JSON text of a value, without spaces. The writer of a list or an object is told at the
opening bracket how many parts it will have. -/
def jsonText : Value → String
  | .undefined => "null"
  | .null => "null"
  | .bool b => if b then "true" else "false"
  | .number d => numberText d
  | .string s => Json.quote s
  | .array items => Json.bracketed "[" "]" items.length (itemsText items)
  | .object entries => Json.bracketed "\x7b" "\x7d" (definedCount entries) (entriesText entries)

/-- The texts of the items of a list. -/
def itemsText : List Value → List String
  | [] => []
  | item :: rest => jsonText item :: itemsText rest

/-- The texts of the entries that are not absent. -/
def entriesText : List (String × Value) → List String
  | [] => []
  | (_, .undefined) :: rest => entriesText rest
  | (key, value) :: rest => (Json.quote key ++ ":" ++ jsonText value) :: entriesText rest

end

/-- A number in JSON as a double: a whole number becomes the nearest one. -/
def doubleOfNumber : Json.Number → Double
  | .integer n => .ofInt n
  | .float d => d

mutual

/-- The value of a JSON document. Of members with the same name the last one counts, in the place
of the first. -/
def ofJson : Json → Value
  | .null => .null
  | .bool b => .bool b
  | .number n => .number (doubleOfNumber n)
  | .string s => .string s
  | .array items => .array (ofItems items)
  | .object members => .object (Entries.ofList (ofMembers members))

/-- The values of the items. -/
def ofItems : List Json → List Value
  | [] => []
  | item :: rest => ofJson item :: ofItems rest

/-- The values of the members, one after another. -/
def ofMembers : List (String × Json) → List (String × Value)
  | [] => []
  | (name, member) :: rest => (name, ofJson member) :: ofMembers rest

end

end Value

end Conform

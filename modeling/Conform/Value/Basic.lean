import Conform.Double.Layout
import Conform.Double.Round
import Conform.Entries

/-!
# Values

The data that is validated, and that validation returns: JSON data with one more state,
`Value.undefined`, which stands for what is absent. Absent and null are kept apart throughout.

Messages name the kind of a value and quote its text. Both follow the conventions of scripting
languages: lists are objects to `Value.typeName`, and `Value.toText` joins their items by commas.
-/

namespace Conform

/-- A value. The entries of an object are in the order in which they were first written. -/
inductive Value where
  | undefined
  | null
  | bool (b : Bool)
  | number (d : Double)
  | string (s : String)
  | array (items : List Value)
  | object (entries : List (String × Value))

namespace Value

/-- An absent value, where nothing else is given. -/
instance : Inhabited Value := ⟨.undefined⟩

mutual

/-- No object in the value has a name twice. -/
def Valid : Value → Prop
  | .array items => ValidItems items
  | .object entries => Entries.Distinct entries ∧ ValidEntries entries
  | _ => True

/-- Every item is valid. -/
def ValidItems : List Value → Prop
  | [] => True
  | item :: rest => item.Valid ∧ ValidItems rest

/-- Every value of an entry is valid. -/
def ValidEntries : List (String × Value) → Prop
  | [] => True
  | (_, value) :: rest => value.Valid ∧ ValidEntries rest

end

/-! ## Kinds and parts -/

/-- The name of the value's kind. Null and lists count as objects. -/
def typeName : Value → String
  | .undefined => "undefined"
  | .null | .array _ | .object _ => "object"
  | .bool _ => "boolean"
  | .number _ => "number"
  | .string _ => "string"

/-- Whether the value is absent. -/
def isUndefined : Value → Bool
  | .undefined => true
  | _ => false

/-- Whether the value is null. -/
def isNull : Value → Bool
  | .null => true
  | _ => false

/-- The text of a string. -/
def string? : Value → Option String
  | .string s => some s
  | _ => none

/-- The double of a number. -/
def number? : Value → Option Double
  | .number d => some d
  | _ => none

/-- The truth value. -/
def bool? : Value → Option Bool
  | .bool b => some b
  | _ => none

/-- The items of a list. -/
def array? : Value → Option (List Value)
  | .array items => some items
  | _ => none

/-- The entries of an object. -/
def object? : Value → Option (List (String × Value))
  | .object entries => some entries
  | _ => none

/-- The value under a name; absent if there is none, or no object to hold it. -/
def get (key : String) : Value → Value
  | .object entries => (Entries.get? key entries).getD .undefined
  | _ => .undefined

/-- A whole number as a value. -/
def ofInt (n : Int) : Value := .number (.ofInt n)

/-- A value that may be missing, as null if it is. -/
def ofOption : Option Value → Value
  | some value => value
  | none => .null

/-! ## Text -/

mutual

/-- The text of a value in a message. -/
def toText : Value → String
  | .undefined => "undefined"
  | .null => "null"
  | .bool b => if b then "true" else "false"
  | .number d => d.toText
  | .string s => s
  | .array items => ",".intercalate (itemTexts items)
  | .object _ => "[object Object]"

/-- The texts of the items of a list, empty for those that are absent or null. -/
def itemTexts : List Value → List String
  | [] => []
  | .undefined :: rest => "" :: itemTexts rest
  | .null :: rest => "" :: itemTexts rest
  | item :: rest => toText item :: itemTexts rest

end

/-! ## Equality -/

/-- Strict equality: the same scalar of the same kind. No list or object equals another. -/
def strictEq : Value → Value → Bool
  | .undefined, .undefined => true
  | .null, .null => true
  | .bool a, .bool b => a == b
  | .number a, .number b => a.eq b
  | .string a, .string b => a == b
  | _, _ => false

mutual

/-- Equality of structure. The order of an object's entries does not matter. -/
def equal : Value → Value → Bool
  | .undefined, .undefined => true
  | .null, .null => true
  | .bool a, .bool b => a == b
  | .number a, .number b => a.eq b
  | .string a, .string b => a == b
  | .array a, .array b => equalItems a b
  | .object a, .object b => a.length == b.length && equalEntries a b
  | _, _ => false

/-- Equality of lists item by item. -/
def equalItems : List Value → List Value → Bool
  | [], [] => true
  | a :: as, b :: bs => equal a b && equalItems as bs
  | _, _ => false

/-- Whether every entry has an equal value under its name among the others. -/
def equalEntries : List (String × Value) → List (String × Value) → Bool
  | [], _ => true
  | (key, value) :: rest, others =>
    (match Entries.get? key others with
      | some other => equal value other
      | none => false) && equalEntries rest others

end

end Value

end Conform

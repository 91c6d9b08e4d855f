import Conform.Schema.Basic
import Conform.Validation

/-!
# Walking a value along a schema

`Schema.walk` validates a value. Null and absence are settled by the modifiers; anything else goes
to the schema's check, which for a container walks the children at longer paths: `.name` for a
property, `[0]` for an item, `{union(0)}` for a member of a union. Every error of a check is
put at the end of the log as soon as it is known, so the log is in the order of discovery.

* A container fails if a child does, and always has a tree with all its children.
* A union walks all its members, also after one has accepted, and takes the result of the first
  that does. The errors of its members are in the log only.
* An object keeps its declared properties alone, without those whose result is absent.
* A record checks each key and its value. A closed set of keys must be complete, unless the values
  are optional.
-/

namespace Conform

/-- What a check comes to: the value of the result, or failure. An absent value is a result. -/
inductive Outcome where
  | valid (value : Value)
  | invalid

/-- An outcome with the tree of errors beside it. -/
structure Verdict where
  outcome : Outcome
  validation : Validation

namespace Outcome

/-- Whether there is a result. -/
def isValid : Outcome → Bool
  | .valid _ => true
  | .invalid => false

/-- The result. -/
def value? : Outcome → Option Value
  | .valid value => some value
  | .invalid => none

end Outcome

/-- The error of a union none of whose members accepts. -/
def noUnionMember : String := "No valid union schemas"

/-- The error of a key that a closed set asks for and the input lacks. -/
def missingProperty : String := "Property is missing."

/-! ## Checks of single values -/

/-- The result of a check of a single value, or its error. -/
def LeafCheck.check (input : Value) : LeafCheck → Except String Value
  | .primitive p =>
    if p.accepts input then .ok input
    else .error ("\"" ++ input.toText ++ "\" is not a " ++ p.name ++ ".")
  | .options literals =>
    if literals.any (·.accepts input) then .ok input
    else
      let allowed := ", ".intercalate (literals.map Literal.toText)
      .error ("\"" ++ input.toText ++ "\" is not a valid option (" ++ allowed ++ ").")
  | .parser p => p.parse input

namespace Verdict

/-- The verdict of a passed check. -/
def pass (value : Value) : Verdict := ⟨.valid value, .clean⟩

/-- The verdict of a failed check. -/
def fail (error : String) : Verdict := ⟨.invalid, .leaf error⟩

/-- The verdict of a check of a single value. -/
def ofCheck : Except String Value → Verdict
  | .ok value => pass value
  | .error error => fail error

/-- The verdict on null or on absence, which only a modifier accepts. -/
def ofModifier (accepted : Bool) (input : Value) : Verdict :=
  if accepted then pass input else fail (input.toText ++ " is not allowed.")

/-- The verdict on a value of the wrong shape. -/
def wrongShape (input : Value) (shape : String) : Verdict :=
  fail ("Value of type \"" ++ input.typeName ++ "\" is not " ++ shape ++ ".")

/-- A verdict at its place: the error of a leaf goes into the log. -/
def recordAt (path : String) (log : Log) (v : Verdict) : Verdict × Log :=
  match v.validation with
  | .leaf error => (v, log.push ⟨path, error⟩)
  | _ => (v, log)

/-- The verdict of a union on the verdicts of its members. -/
def ofMembers (members : List Verdict) : Verdict :=
  match members.findSome? (·.outcome.value?) with
  | some value => pass value
  | none => fail noUnionMember

/-- The results of all items, if there are as many. -/
def itemResults? : List Verdict → Option (List Value)
  | [] => some []
  | v :: rest =>
    match v.outcome, itemResults? rest with
    | .valid value, some values => some (value :: values)
    | _, _ => none

/-- The verdict of a list on the verdicts of its items. -/
def ofItems (items : List Verdict) : Verdict where
  outcome := match itemResults? items with
    | some values => .valid (.array values)
    | none => .invalid
  validation := .list (items.map Verdict.validation)

/-- The results of all entries that are not absent, if none has failed. -/
def entryResults? : List (String × Verdict) → Option (List (String × Value))
  | [] => some []
  | (key, v) :: rest =>
    match v.outcome, entryResults? rest with
    | .valid .undefined, some results => some results
    | .valid value, some results => some ((key, value) :: results)
    | _, _ => none

/-- The verdict of an object on the verdicts of its entries. -/
def ofEntries (entries : List (String × Verdict)) : Verdict where
  outcome := match entryResults? entries with
    | some results => .valid (.object results)
    | none => .invalid
  validation := .map (entries.map fun entry => (entry.1, entry.2.validation))

/-- The verdict on an entry of a record. A rejected key fails the entry, and its error stands in
the place of a clean value's tree. -/
def ofKeyed (key value : Verdict) : Verdict :=
  match key.outcome, value.validation with
  | .valid _, _ => value
  | .invalid, .clean => ⟨.invalid, key.validation⟩
  | .invalid, validation => ⟨.invalid, validation⟩

end Verdict

/-! ## Paths -/

/-- The path of a property. -/
def propertyPath (path name : String) : String := path ++ "." ++ name

/-- The path of an item. -/
def itemPath (path : String) (position : Nat) : String :=
  path ++ "[" ++ toString position ++ "]"

/-- The path of a member of a union. -/
def memberPath (path : String) (position : Nat) : String :=
  path ++ "\x7bunion(" ++ toString position ++ ")\x7d"

/-! ## Loops over the parts of a container -/

/-- A walk under some schema: of a value at a path, with the log so far. -/
abbrev Walk := Value → String → Log → Verdict × Log

/-- Walks the items of a list under one schema. -/
def walkItems (element : Walk) (path : String) :
    Nat → List Value → Log → List Verdict × Log
  | _, [], log => ([], log)
  | position, item :: rest, log =>
    let (verdict, log) := element item (itemPath path position) log
    let (verdicts, log) := walkItems element path (position + 1) rest log
    (verdict :: verdicts, log)

/-- Walks an entry of a record: its key, then its value. -/
def walkEntry (keys : KeyCheck) (values : Walk) (path key : String) (value : Value) (log : Log) :
    Verdict × Log :=
  let keyVerdict := Verdict.ofCheck (keys.toLeaf.check (.string key))
  let (keyVerdict, log) := keyVerdict.recordAt (propertyPath path key) log
  let (valueVerdict, log) := values value (propertyPath path key) log
  (.ofKeyed keyVerdict valueVerdict, log)

/-- Walks the entries of a record. -/
def walkEntries (keys : KeyCheck) (values : Walk) (path : String) :
    List (String × Value) → Log → List (String × Verdict) × Log
  | [], log => ([], log)
  | (key, value) :: rest, log =>
    let (verdict, log) := walkEntry keys values path key value log
    let (verdicts, log) := walkEntries keys values path rest log
    ((key, verdict) :: verdicts, log)

/-- The texts of the literals that are not among the keys, each once. -/
def missingKeys : List String → List Literal → List String
  | _, [] => []
  | present, l :: rest =>
    if l.toText ∈ present then missingKeys present rest
    else l.toText :: missingKeys (l.toText :: present) rest

/-- The keys that a record asks for and the input lacks. -/
def KeyCheck.missing (present : List String) (optional : Bool) : KeyCheck → List String
  | .primitive _ => []
  | .options literals => if optional then [] else missingKeys present literals

/-- Records the missing keys of a record. -/
def recordMissing (path : String) : List String → Log → List (String × Verdict) × Log
  | [], log => ([], log)
  | key :: rest, log =>
    let (verdict, log) := (Verdict.fail missingProperty).recordAt (propertyPath path key) log
    let (verdicts, log) := recordMissing path rest log
    ((key, verdict) :: verdicts, log)

/-! ## The walk -/

namespace Schema

mutual

/-- Validates a value at a path, with the log so far. -/
def walk (schema : Schema) (input : Value) (path : String) (log : Log) : Verdict × Log :=
  match input with
  | .null => (Verdict.ofModifier schema.modifiers.nullable .null).recordAt path log
  | .undefined => (Verdict.ofModifier schema.modifiers.optional .undefined).recordAt path log
  | input =>
    match schema with
    | .leaf check _ => (Verdict.ofCheck (check.check input)).recordAt path log
    | .union first second third _ =>
      let (firstVerdict, log) := walk first input (memberPath path 0) log
      let (secondVerdict, log) := walk second input (memberPath path 1) log
      let (thirdVerdict, log) := walkThird third input (memberPath path 2) log
      (Verdict.ofMembers (firstVerdict :: secondVerdict :: thirdVerdict)).recordAt path log
    | .array element _ =>
      match input with
      | .array items =>
        let (verdicts, log) := walkItems (walk element) path 0 items log
        (.ofItems verdicts, log)
      | input => (Verdict.wrongShape input "an array").recordAt path log
    | .tuple schemas _ =>
      match input with
      | .array items =>
        if items.length = schemas.length then
          let (verdicts, log) := walkTuple schemas path 0 items log
          (.ofItems verdicts, log)
        else
          (Verdict.fail ("Tuple of length \"" ++ toString items.length ++ "\" should be \"" ++
            toString schemas.length ++ "\".")).recordAt path log
      | input => (Verdict.wrongShape input "a tuple").recordAt path log
    | .object properties _ =>
      match input with
      | .object entries =>
        let (verdicts, log) := walkProperties properties (.object entries) path log
        (.ofEntries verdicts, log)
      | input => (Verdict.wrongShape input "an object").recordAt path log
    | .record keys values _ =>
      match input with
      | .object entries =>
        let (verdicts, log) := walkEntries keys (walk values) path entries log
        let missing := keys.missing (Entries.keys entries) values.modifiers.optional
        let (missingVerdicts, log) := recordMissing path missing log
        (.ofEntries (verdicts ++ missingVerdicts), log)
      | input => (Verdict.wrongShape input "a record").recordAt path log

/-- Walks the third member of a union, if there is one. -/
def walkThird (third : Option Schema) (input : Value) (path : String) (log : Log) :
    List Verdict × Log :=
  match third with
  | none => ([], log)
  | some member =>
    let (verdict, log) := walk member input path log
    ([verdict], log)

/-- Walks the items of a tuple, each under its own schema. -/
def walkTuple (schemas : List Schema) (path : String) (position : Nat) (items : List Value)
    (log : Log) : List Verdict × Log :=
  match schemas, items with
  | schema :: schemas, item :: items =>
    let (verdict, log) := walk schema item (itemPath path position) log
    let (verdicts, log) := walkTuple schemas path (position + 1) items log
    (verdict :: verdicts, log)
  | _, _ => ([], log)

/-- Walks the declared properties of an object, in the order of their declaration. -/
def walkProperties (properties : List (String × Schema)) (input : Value) (path : String)
    (log : Log) : List (String × Verdict) × Log :=
  match properties with
  | [] => ([], log)
  | (name, schema) :: rest =>
    let (verdict, log) := walk schema (input.get name) (propertyPath path name) log
    let (verdicts, log) := walkProperties rest input path log
    ((name, verdict) :: verdicts, log)

end

end Schema

end Conform

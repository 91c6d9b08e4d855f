import Conform.Schema.Basic

/-!
# Induction on schemas

A schema holds others in lists, in pairs and behind an option, and the recursion that Lean derives
for it has a case for each of these. `Schema.children` is one view of them all, and `Schema.induct`
is induction along it: it has a single case, in which the property holds of all children.

`Schema.Every` says that a property holds at each node of a schema, and `Value.Every` the same of
the parts of a value. Both are taken apart one node at a time, and what holds at every node of a
schema can be decided (`Schema.all`). `Value.induct` is the same principle of induction for values,
and `Value.OfParts` says of a property that lists and objects have it by their parts.
-/

namespace Conform

namespace Schema

/-- The schemas that a schema is made of, in order. -/
def children : Schema → List Schema
  | .leaf _ _ => []
  | .union first second third _ => unionMembers first second third
  | .array element _ => [element]
  | .tuple items _ => items
  | .object properties _ => Entries.values properties
  | .record _ values _ => [values]

/-- The schema of a property is a child of the object. -/
theorem mem_children_object {properties : List (String × Schema)} {p : String × Schema}
    (hp : p ∈ properties) (m : Modifiers) : p.2 ∈ (object properties m).children :=
  List.mem_map_of_mem hp

/-- The schema of the values is a child of the record. -/
theorem mem_children_record (keys : KeyCheck) (values : Schema) (m : Modifiers) :
    values ∈ (record keys values m).children :=
  List.mem_singleton_self values

/-- A child is smaller than its schema. -/
theorem sizeOf_child {schema child : Schema} (h : child ∈ schema.children) :
    sizeOf child < sizeOf schema := by
  cases schema with
  | leaf check m => exact absurd h List.not_mem_nil
  | union first second third m =>
    cases third <;>
      simp only [children, unionMembers, Option.toList, List.mem_cons, List.not_mem_nil, or_false]
        at h <;>
      rcases h with rfl | rfl | rfl <;> simp <;> omega
  | array element m =>
    rw [List.mem_singleton.1 h, array.sizeOf_spec]
    omega
  | tuple items m =>
    have : sizeOf child < sizeOf items := List.sizeOf_lt_of_mem h
    rw [tuple.sizeOf_spec]
    omega
  | object properties m =>
    have : sizeOf child < sizeOf properties := Entries.sizeOf_lt_of_mem_values h
    rw [object.sizeOf_spec]
    omega
  | record keys values m =>
    rw [List.mem_singleton.1 h, record.sizeOf_spec]
    omega

/-- Structural induction: what holds of a schema if it holds of its children holds of all. -/
@[induction_eliminator]
theorem induct {motive : Schema → Prop}
    (node : ∀ schema, (∀ child ∈ schema.children, motive child) → motive schema)
    (schema : Schema) : motive schema :=
  node schema fun child _ => induct node child
termination_by sizeOf schema
decreasing_by exact sizeOf_child ‹_›

/-- The property holds at every node of the schema. -/
inductive Every (P : Schema → Prop) : Schema → Prop
  | intro {schema : Schema} (here : P schema) (child : ∀ c ∈ schema.children, Every P c) :
    Every P schema

/-- The property holds at the root. -/
theorem Every.here {P : Schema → Prop} {schema : Schema} (h : schema.Every P) : P schema := by
  cases h
  assumption

/-- The property holds at every node of a child. -/
theorem Every.child {P : Schema → Prop} {schema c : Schema} (h : schema.Every P)
    (hc : c ∈ schema.children) : c.Every P := by
  cases h with
  | intro _ child => exact child c hc

/-- A property of all schemas holds at every node. -/
theorem Every.of_forall {P : Schema → Prop} (h : ∀ node, P node) (schema : Schema) :
    schema.Every P := by
  induction schema with
  | node schema ih => exact .intro (h schema) ih

/-- A property that follows from another holds where the other does. -/
theorem Every.mono {P Q : Schema → Prop} (hpq : ∀ node, P node → Q node) {schema : Schema}
    (h : schema.Every P) : schema.Every Q := by
  induction h with
  | intro here _ ih => exact .intro (hpq _ here) ih

/-- Whether the schema is a union. -/
def isUnion : Schema → Bool
  | .union .. => true
  | _ => false

/-- No node of the schema is a union. -/
def UnionFree (schema : Schema) : Prop := schema.Every fun node => node.isUnion = false

/-- The parser that the schema is, if it is one. -/
def parser? : Schema → Option Parser
  | .leaf (.parser p) _ => some p
  | _ => none

/-- No node of the schema is a parser. -/
def ParserFree (schema : Schema) : Prop := schema.Every fun node => node.parser? = none

/-- The property holds of every parser in the schema. -/
def EveryParser (P : Parser → Prop) (schema : Schema) : Prop :=
  schema.Every fun node => ∀ p, node.parser? = some p → P p

/-- Of the parsers in a schema without any, everything holds. -/
theorem ParserFree.everyParser {P : Parser → Prop} {schema : Schema} (h : schema.ParserFree) :
    schema.EveryParser P := by
  refine h.mono fun node hnone p hp => ?_
  rw [hnone] at hp
  cases hp

/-- A schema that is no parser itself has the parsers of its children. -/
theorem EveryParser.of_children {P : Parser → Prop} {schema : Schema} (here : schema.parser? = none)
    (child : ∀ c ∈ schema.children, c.EveryParser P) : schema.EveryParser P := by
  refine .intro (fun p hp => ?_) child
  rw [here] at hp
  cases hp

/-- The names that an object declares. -/
def declaredNames : Schema → List String
  | .object properties _ => Entries.keys properties
  | _ => []

/-- No object in the schema declares a name twice. So it is in a schema that is built of a document
that declares none twice. -/
def NamesDistinct (schema : Schema) : Prop := schema.Every fun node => node.declaredNames.Nodup

/-! ## Deciding what holds at every node -/

mutual

/-- Whether all nodes of the schema pass a test. -/
def all (test : Schema → Bool) (schema : Schema) : Bool :=
  test schema &&
    match schema with
    | .leaf _ _ => true
    | .union first second third _ => all test first && (all test second && allThird test third)
    | .array element _ => all test element
    | .tuple items _ => allItems test items
    | .object properties _ => allProperties test properties
    | .record _ values _ => all test values

/-- Whether all nodes of a schema that may be missing pass a test. -/
def allThird (test : Schema → Bool) : Option Schema → Bool
  | none => true
  | some schema => all test schema

/-- Whether all nodes of several schemas pass a test. -/
def allItems (test : Schema → Bool) : List Schema → Bool
  | [] => true
  | schema :: rest => all test schema && allItems test rest

/-- Whether all nodes of the properties' schemas pass a test. -/
def allProperties (test : Schema → Bool) : List (String × Schema) → Bool
  | [] => true
  | (_, schema) :: rest => all test schema && allProperties test rest

end

/-- All nodes pass exactly if the root does and all nodes of the children do. -/
theorem all_eq (test : Schema → Bool) (schema : Schema) :
    schema.all test = (test schema && schema.children.all (all test)) := by
  have hitems (items : List Schema) : allItems test items = items.all (all test) := by
    induction items with
    | nil => rfl
    | cons item rest ih => rw [allItems, ih, List.all_cons]
  have hproperties (properties : List (String × Schema)) :
      allProperties test properties = (Entries.values properties).all (all test) := by
    induction properties with
    | nil => rfl
    | cons p rest ih => rw [allProperties, ih, Entries.values, Entries.values, List.map_cons,
        List.all_cons]
  cases schema with
  | leaf check m => simp [all, children]
  | union first second third m =>
    cases third <;> simp [all, allThird, children, unionMembers]
  | array element m => simp [all, children]
  | tuple items m => rw [all, hitems, children]
  | object properties m => rw [all, hproperties, children]
  | record keys values m => simp [all, children]

/-- The test is passed by all nodes exactly if it holds at every node. -/
theorem all_eq_true (test : Schema → Bool) (schema : Schema) :
    schema.all test = true ↔ schema.Every fun node => test node = true := by
  induction schema with
  | node schema ih =>
    rw [all_eq, Bool.and_eq_true, List.all_eq_true]
    constructor
    · rintro ⟨here, child⟩
      exact .intro here fun c hc => (ih c hc).1 (child c hc)
    · intro h
      exact ⟨h.here, fun c hc => (ih c hc).2 (h.child hc)⟩

instance (P : Schema → Prop) [DecidablePred P] (schema : Schema) : Decidable (schema.Every P) :=
  decidable_of_iff (schema.all (fun node => decide (P node)) = true) <| by
    rw [all_eq_true]
    simp only [decide_eq_true_eq]

instance (schema : Schema) : Decidable schema.UnionFree :=
  inferInstanceAs (Decidable (schema.Every _))

instance (schema : Schema) : Decidable schema.ParserFree :=
  inferInstanceAs (Decidable (schema.Every _))

instance (schema : Schema) : Decidable schema.NamesDistinct :=
  inferInstanceAs (Decidable (schema.Every _))

end Schema

namespace Value

/-- The values that a value is made of, in order. -/
def children : Value → List Value
  | .array items => items
  | .object entries => Entries.values entries
  | _ => []

/-- A child is smaller than its value. -/
theorem sizeOf_child {value child : Value} (h : child ∈ value.children) :
    sizeOf child < sizeOf value := by
  cases value with
  | array items =>
    have : sizeOf child < sizeOf items := List.sizeOf_lt_of_mem h
    rw [array.sizeOf_spec]
    omega
  | object entries =>
    have : sizeOf child < sizeOf entries := Entries.sizeOf_lt_of_mem_values h
    rw [object.sizeOf_spec]
    omega
  | _ => exact absurd h List.not_mem_nil

/-- Structural induction: what holds of a value if it holds of its children holds of all. -/
@[induction_eliminator]
theorem induct {motive : Value → Prop}
    (node : ∀ value, (∀ child ∈ value.children, motive child) → motive value)
    (value : Value) : motive value :=
  node value fun child _ => induct node child
termination_by sizeOf value
decreasing_by exact sizeOf_child ‹_›

/-- The property holds of the value and of every value in it. -/
inductive Every (P : Value → Prop) : Value → Prop
  | intro {value : Value} (here : P value) (child : ∀ c ∈ value.children, Every P c) :
    Every P value

/-- The property holds of the value itself. -/
theorem Every.here {P : Value → Prop} {value : Value} (h : value.Every P) : P value := by
  cases h
  assumption

/-- The property holds of a child and of every value in it. -/
theorem Every.child {P : Value → Prop} {value c : Value} (h : value.Every P)
    (hc : c ∈ value.children) : c.Every P := by
  cases h with
  | intro _ child => exact child c hc

/-- What an object has under a name is absence or one of its values. -/
theorem get_eq_undefined_or_mem (value : Value) (key : String) :
    value.get key = .undefined ∨ value.get key ∈ value.children := by
  cases value with
  | object entries =>
    rw [get, children]
    induction entries with
    | nil => exact .inl rfl
    | cons e rest ih =>
      rw [Entries.get?]
      split
      · exact .inr List.mem_cons_self
      · exact ih.imp_right (List.mem_cons_of_mem _)
  | _ => exact .inl rfl

/-- A property of an object and of all in it holds of what it has under a name, and of all in that,
if it holds of absence. -/
theorem Every.get {P : Value → Prop} {value : Value} (h : value.Every P) (hundefined : P .undefined)
    (key : String) : (value.get key).Every P := by
  rcases value.get_eq_undefined_or_mem key with hget | hget
  · rw [hget]
    exact .intro hundefined fun c hc => absurd hc List.not_mem_nil
  · exact h.child hget

/-- A list is valid exactly if all its items are. -/
theorem valid_array {items : List Value} :
    (Value.array items).Valid ↔ ∀ item ∈ items, item.Valid := by
  rw [Valid]
  induction items with
  | nil => simp [ValidItems]
  | cons item rest ih => simp [ValidItems, ih]

/-- An object is valid exactly if its names are distinct and all its values are valid. -/
theorem valid_object {entries : List (String × Value)} :
    (Value.object entries).Valid ↔ Entries.Distinct entries ∧ ∀ e ∈ entries, e.2.Valid := by
  have h : ∀ l : List (String × Value), ValidEntries l ↔ ∀ e ∈ l, e.2.Valid := by
    intro l
    induction l with
    | nil => simp [ValidEntries]
    | cons e rest ih => simp [ValidEntries, ih]
  rw [Valid, h]

/-- A list has the property exactly if its items have it, and an object exactly if its names are
distinct and its values have it. -/
structure OfParts (P : Value → Prop) : Prop where
  array : ∀ {items}, P (.array items) ↔ ∀ item ∈ items, P item
  object : ∀ {entries}, P (.object entries) ↔ Entries.Distinct entries ∧ ∀ e ∈ entries, P e.2

/-- Values are valid by their parts. -/
theorem ofParts_valid : OfParts Valid := ⟨valid_array, valid_object⟩

/-- What an object has under a name has the property of the object, if there is something. -/
theorem OfParts.get {P : Value → Prop} (hP : OfParts P) {value : Value} (h : P value)
    (key : String) : value.get key = .undefined ∨ P (value.get key) := by
  rcases value.get_eq_undefined_or_mem key with hget | hget
  · exact .inl hget
  · cases value with
    | object entries =>
      obtain ⟨e, he, heq⟩ := List.mem_map.1 hget
      exact .inr (heq ▸ (hP.object.1 h).2 e he)
    | array => exact .inl rfl
    | _ => exact absurd hget List.not_mem_nil

/-- What a valid object has under a name is valid. -/
theorem Valid.get {value : Value} (h : value.Valid) (key : String) : (value.get key).Valid := by
  rcases ofParts_valid.get h key with hget | hget
  · rw [hget]
    trivial
  · exact hget

end Value

end Conform

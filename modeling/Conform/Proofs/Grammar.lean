import Conform.Proofs.Verdict
import Mathlib.Tactic.ByContra

/-!
# The grammar that schemas declare

What a schema accepts and what it makes of the value, said without a path, a log or a tree.
`Schema.Accepts` has a rule for each way to accept a value, and `Schema.result` gives the value that
comes out: the input itself for a check of single values other than a parser, the result of the
first accepting member for a union, and for a container the results of its parts.

The main statement is `outcome_iff_accepts`: a walk passes exactly on the values that the schema
accepts, and always with that result. For each step of a walk there is one lemma on what the grammar
accepts there and one on the result, and the induction along the walk sets them against the verdict.
-/

namespace Conform

/-- The value is of the type. -/
inductive Primitive.Takes : Primitive → Value → Prop
  | string (s : String) : Takes .string (.string s)
  | number (d : Double) : Takes .number (.number d)
  | boolean (b : Bool) : Takes .boolean (.bool b)
  | unknown (value : Value) : Takes .unknown value
  | any (value : Value) : Takes .any value

/-- The value is the literal: the same string, or a number equal to the number. -/
inductive Literal.Denotes : Literal → Value → Prop
  | string (s : String) : Denotes (.string s) (.string s)
  | number {d e : Double} (h : d.eq e = true) : Denotes (.number d) (.number e)

/-- The check accepts the value and answers with a value for the result. -/
inductive LeafCheck.Answers : LeafCheck → Value → Value → Prop
  | primitive {p : Primitive} {input : Value} (h : p.Takes input) :
    Answers (.primitive p) input input
  | options {literals : List Literal} {l : Literal} {input : Value} (hl : l ∈ literals)
    (h : l.Denotes input) : Answers (.options literals) input input
  | parser {p : Parser} {input value : Value} (h : p.parse input = .ok value) :
    Answers (.parser p) input value

/-- The verdict passes with the result if the value is accepted, and fails if it is not. -/
def Verdict.Decides (v : Verdict) (accepted : Prop) (result : Value) : Prop :=
  (accepted → v.outcome = .valid result) ∧ (¬ accepted → v.outcome = .invalid)

/-- The key passes the check, as a string. -/
def KeyCheck.Accepts (keys : KeyCheck) (key : String) : Prop :=
  keys.toLeaf.Answers (.string key) (.string key)

namespace Schema

/-- The schema accepts the value. -/
inductive Accepts : Schema → Value → Prop
  | null {schema : Schema} (h : schema.modifiers.nullable = true) : Accepts schema .null
  | undefined {schema : Schema} (h : schema.modifiers.optional = true) :
    Accepts schema .undefined
  | leaf {check : LeafCheck} {m : Modifiers} {input value : Value} (present : input.Present)
    (h : check.Answers input value) : Accepts (.leaf check m) input
  | union {first second member : Schema} {third : Option Schema} {m : Modifiers} {input : Value}
    (present : input.Present) (hm : member ∈ unionMembers first second third)
    (h : Accepts member input) : Accepts (.union first second third m) input
  | array {element : Schema} {m : Modifiers} {items : List Value}
    (h : ∀ item ∈ items, Accepts element item) : Accepts (.array element m) (.array items)
  | tuple {schemas : List Schema} {m : Modifiers} {items : List Value}
    (length : items.length = schemas.length)
    (h : ∀ part ∈ schemas.zip items, Accepts part.1 part.2) :
    Accepts (.tuple schemas m) (.array items)
  | object {properties : List (String × Schema)} {m : Modifiers}
    {entries : List (String × Value)}
    (h : ∀ p ∈ properties, Accepts p.2 ((Value.object entries).get p.1)) :
    Accepts (.object properties m) (.object entries)
  | record {keys : KeyCheck} {values : Schema} {m : Modifiers} {entries : List (String × Value)}
    (hkeys : ∀ e ∈ entries, keys.Accepts e.1) (hvalues : ∀ e ∈ entries, Accepts values e.2)
    (complete : ∀ literals, keys = .options literals → values.modifiers.optional = false →
      ∀ l ∈ literals, l.toText ∈ Entries.keys entries) :
    Accepts (.record keys values m) (.object entries)

open Classical in
mutual

/-- What the schema makes of a value that it accepts. -/
noncomputable def result (schema : Schema) (input : Value) : Value :=
  match input with
  | .null => .null
  | .undefined => .undefined
  | input =>
    match schema with
    | .leaf (.primitive _) _ => input
    | .leaf (.options _) _ => input
    | .leaf (.parser p) _ => (p.parse input).toOption.getD input
    | .union first second third _ =>
      if first.Accepts input then result first input
      else if second.Accepts input then result second input
      else resultThird third input
    | .array element _ =>
      match input with
      | .array items => .array (items.map (result element))
      | input => input
    | .tuple schemas _ =>
      match input with
      | .array items => .array (resultItems schemas items)
      | input => input
    | .object properties _ => .object (definedEntries (resultProperties properties input))
    | .record _ values _ =>
      match input with
      | .object entries => .object (definedEntries (entries.map fun e => (e.1, result values e.2)))
      | input => input

/-- What the third member of a union makes of a value. -/
noncomputable def resultThird (third : Option Schema) (input : Value) : Value :=
  match third with
  | none => input
  | some member => result member input

/-- What the items of a tuple make of the items of a list, position by position. -/
noncomputable def resultItems (schemas : List Schema) (items : List Value) : List Value :=
  match schemas, items with
  | schema :: schemas, item :: items => result schema item :: resultItems schemas items
  | _, _ => []

/-- What the properties of an object make of the values under their names. -/
noncomputable def resultProperties (properties : List (String × Schema)) (input : Value) :
    List (String × Value) :=
  match properties with
  | [] => []
  | (name, schema) :: rest => (name, result schema (input.get name)) :: resultProperties rest input

end

end Schema

/-! ## Checks of single values and of keys -/

/-- A primitive type accepts exactly the values that are of the type. -/
theorem Primitive.accepts_iff (p : Primitive) (input : Value) :
    p.accepts input = true ↔ p.Takes input := by
  constructor
  · intro h
    cases p with
    | unknown => exact .unknown input
    | any => exact .any input
    | _ => cases input <;> first | constructor | cases h
  · intro h
    cases h <;> rfl

/-- A literal accepts exactly the values that it denotes. -/
theorem Literal.accepts_iff (l : Literal) (input : Value) :
    l.accepts input = true ↔ l.Denotes input := by
  constructor
  · intro h
    cases l with
    | string s =>
      cases input with
      | string t =>
        obtain rfl : s = t := eq_of_beq h
        exact .string s
      | _ => cases h
    | number d =>
      cases input with
      | number e => exact .number h
      | _ => cases h
  · intro h
    cases h with
    | string s => exact beq_self_eq_true s
    | number h => exact h

/-- A check passes exactly with the values it answers with. -/
theorem LeafCheck.check_eq_ok (check : LeafCheck) (input value : Value) :
    check.check input = .ok value ↔ check.Answers input value := by
  cases check with
  | primitive p =>
    by_cases hp : p.accepts input = true
    · have := (p.accepts_iff input).1 hp
      simp only [LeafCheck.check, hp, if_true, Except.ok.injEq]
      exact ⟨fun h => h ▸ .primitive this, fun h => by cases h; rfl⟩
    · have : ¬ p.Takes input := mt (p.accepts_iff input).2 hp
      simp only [LeafCheck.check, hp, if_false, reduceCtorEq, false_iff]
      exact fun h => by cases h; contradiction
  | options literals =>
    have hiff : (literals.any fun l => l.accepts input) = true ↔
        ∃ l ∈ literals, l.Denotes input := by
      simp [List.any_eq_true, Literal.accepts_iff]
    by_cases hl : (literals.any fun l => l.accepts input) = true
    · obtain ⟨l, hmem, hdenotes⟩ := hiff.1 hl
      simp only [LeafCheck.check, hl, if_true, Except.ok.injEq]
      exact ⟨fun h => h ▸ .options hmem hdenotes, fun h => by cases h; rfl⟩
    · simp only [LeafCheck.check, hl, if_false, reduceCtorEq, false_iff]
      exact fun h => by
        cases h with
        | options hmem hdenotes => exact hl (hiff.2 ⟨_, hmem, hdenotes⟩)
  | parser p => exact ⟨fun h => .parser h, fun h => by cases h; assumption⟩

/-- The key of a record fails exactly if its check does not accept it. -/
theorem KeyCheck.verdict_invalid (keys : KeyCheck) (key : String) :
    (keys.verdict key).outcome = .invalid ↔ ¬ keys.Accepts key := by
  unfold KeyCheck.verdict KeyCheck.Accepts
  rw [← LeafCheck.check_eq_ok]
  cases h : keys.toLeaf.check (.string key) with
  | error e => simp [Verdict.ofCheck, Verdict.fail]
  | ok value =>
    -- Checks of keys are not parsers, so that an accepted key is answered with itself.
    have hsame : value = .string key := by
      have hanswers := (LeafCheck.check_eq_ok ..).1 h
      cases keys <;> cases hanswers <;> rfl
    simp [Verdict.ofCheck, Verdict.pass, hsame]

/-- No key of a closed set is missing exactly if the text of every literal is present. -/
theorem missingKeys_eq_nil (present : List String) (literals : List Literal) :
    missingKeys present literals = [] ↔ ∀ l ∈ literals, l.toText ∈ present := by
  induction literals with
  | nil => simp [missingKeys]
  | cons l rest ih => by_cases hl : l.toText ∈ present <;> simp [missingKeys, hl, ih]

namespace Schema

/-- A record misses no key exactly if its set of keys is open, its values are optional or all
literals are among the keys of the input. -/
theorem missingIn_eq_nil (keys : KeyCheck) (values : Schema) (entries : List (String × Value)) :
    missingIn keys values entries = [] ↔
      ∀ literals, keys = .options literals → values.modifiers.optional = false →
        ∀ l ∈ literals, l.toText ∈ Entries.keys entries := by
  cases keys with
  | primitive p => simp [missingIn, KeyCheck.missing]
  | options literals =>
    cases hopt : values.modifiers.optional <;>
      simp [missingIn, KeyCheck.missing, hopt, missingKeys_eq_nil]

/-! ## The grammar at each step of a walk -/

/-- Null is accepted exactly under the modifier for it. -/
theorem accepts_null (schema : Schema) :
    schema.Accepts .null ↔ schema.modifiers.nullable = true := by
  constructor
  · intro h
    cases h with
    | null h => exact h
    | leaf present | union present => exact absurd rfl present.1
  · exact .null

/-- Absence is accepted exactly under the modifier for it. -/
theorem accepts_undefined (schema : Schema) :
    schema.Accepts .undefined ↔ schema.modifiers.optional = true := by
  constructor
  · intro h
    cases h with
    | undefined h => exact h
    | leaf present | union present => exact absurd rfl present.2
  · exact .undefined

/-- The result of a check of single values is what it answers with. -/
theorem result_leaf {check : LeafCheck} {m : Modifiers} {input value : Value}
    (present : input.Present) (h : check.Answers input value) :
    (leaf check m).result input = value := by
  cases h with
  | primitive => cases input <;> simp [result]
  | options => cases input <;> simp [result]
  | parser h => cases input <;> simp [result, h, Except.toOption, Value.Present] at present ⊢

/-- A check of single values accepts exactly what it answers. -/
theorem accepts_leaf {check : LeafCheck} {m : Modifiers} {input : Value}
    (present : input.Present) :
    (leaf check m).Accepts input ↔ ∃ value, check.Answers input value := by
  constructor
  · intro h
    cases h with
    | null => exact absurd rfl present.1
    | undefined => exact absurd rfl present.2
    | leaf _ h => exact ⟨_, h⟩
  · rintro ⟨value, h⟩
    exact .leaf present h

/-- A settled node passes with the result exactly if the value is accepted, and else fails. -/
theorem verdict_of_settled {schema : Schema} {input : Value} {v : Verdict}
    (h : Settled schema input v) : v.Decides (schema.Accepts input) (schema.result input) := by
  cases h with
  | null =>
    rw [accepts_null]
    cases schema.modifiers.nullable <;>
      simp [Verdict.Decides, Verdict.ofModifier, Verdict.pass, Verdict.fail, result]
  | undefined =>
    rw [accepts_undefined]
    cases schema.modifiers.optional <;>
      simp [Verdict.Decides, Verdict.ofModifier, Verdict.pass, Verdict.fail, result]
  | @leaf check m input present =>
    rw [accepts_leaf present]
    constructor
    · rintro ⟨value, h⟩
      rw [result_leaf present h, (check.check_eq_ok input value).2 h]
      rfl
    · intro hnone
      cases hcheck : check.check input with
      | ok value => exact absurd ⟨value, (check.check_eq_ok input value).1 hcheck⟩ hnone
      | error e => rfl
  | array present shape | tuple present shape | object present shape | record present shape =>
    -- Only the modifiers accept values of another shape, and they have no say on a present value.
    refine ⟨fun h => ?_, fun _ => rfl⟩
    cases h with
    | null => exact absurd rfl present.1
    | undefined => exact absurd rfl present.2
    | _ => exact absurd rfl (shape _)
  | length shape =>
    refine ⟨fun h => ?_, fun _ => rfl⟩
    cases h with
    | tuple length => exact absurd length shape

/-- A union accepts what one of its members accepts. -/
theorem accepts_union {first second : Schema} {third : Option Schema} {m : Modifiers}
    {input : Value} (present : input.Present) :
    (union first second third m).Accepts input ↔
      ∃ member ∈ unionMembers first second third, member.Accepts input := by
  constructor
  · intro h
    cases h with
    | null => exact absurd rfl present.1
    | undefined => exact absurd rfl present.2
    | union _ hm h => exact ⟨_, hm, h⟩
  · rintro ⟨member, hm, h⟩
    exact .union present hm h

open Classical in
/-- The result of a union is that of the first member that accepts. -/
theorem result_union (first second : Schema) (third : Option Schema) (m : Modifiers)
    {input : Value} (present : input.Present) :
    (union first second third m).result input =
      if first.Accepts input then first.result input
      else if second.Accepts input then second.result input
      else resultThird third input := by
  cases input <;> simp [result, Value.Present] at present ⊢

/-- Where each member passes with its result on what it accepts and fails on all else, their union
does so too. -/
theorem ofMembers_of_accepts {first second : Schema} {third : Option Schema} (m : Modifiers)
    {input : Value} (present : input.Present)
    (ih : ∀ s ∈ unionMembers first second third,
      (s.verdict input).Decides (s.Accepts input) (s.result input)) :
    (Verdict.ofMembers ((unionMembers first second third).map (·.verdict input))).Decides
      (∃ s ∈ unionMembers first second third, s.Accepts input)
      ((union first second third m).result input) := by
  rw [result_union first second third m present]
  unfold Verdict.Decides
  have hvalid : ∀ s ∈ unionMembers first second third, s.Accepts input →
      (s.verdict input).outcome.value? = some (s.result input) := by
    intro s hs h
    rw [(ih s hs).1 h, Outcome.value?]
  have hinvalid : ∀ s ∈ unionMembers first second third, ¬ s.Accepts input →
      (s.verdict input).outcome.value? = none := by
    intro s hs h
    rw [(ih s hs).2 h, Outcome.value?]
  simp only [unionMembers, List.forall_mem_cons] at hvalid hinvalid
  -- The members are asked in order until one accepts.
  by_cases hfirst : first.Accepts input
  · simp [unionMembers, Verdict.ofMembers, Verdict.pass, hfirst, hvalid.1 hfirst]
  by_cases hsecond : second.Accepts input
  · simp [unionMembers, Verdict.ofMembers, Verdict.pass, hfirst, hsecond, hinvalid.1 hfirst,
      hvalid.2.1 hsecond]
  cases third with
  | none =>
    simp [unionMembers, Verdict.ofMembers, Verdict.fail, hfirst, hsecond, hinvalid.1 hfirst,
      hinvalid.2.1 hsecond]
  | some member =>
    by_cases hthird : member.Accepts input
    · simp [unionMembers, Verdict.ofMembers, Verdict.pass, hfirst, hsecond, hthird,
        hinvalid.1 hfirst, hinvalid.2.1 hsecond, hvalid.2.2 member (by simp) hthird, resultThird]
    · simp [unionMembers, Verdict.ofMembers, Verdict.fail, hfirst, hsecond, hthird,
        hinvalid.1 hfirst, hinvalid.2.1 hsecond, hinvalid.2.2 member (by simp) hthird]

/-- A list is accepted exactly if all its parts are. -/
theorem accepts_list {schema : Schema} {input : Value} {parts : List (Schema × Value)}
    (h : schema.listParts? input = some parts) :
    schema.Accepts input ↔ ∀ part ∈ parts, part.1.Accepts part.2 := by
  unfold listParts? at h
  split at h
  · obtain rfl := Option.some.inj h
    rw [List.forall_mem_map]
    exact ⟨fun h => by cases h; assumption, .array⟩
  · split at h
    · rename_i length
      obtain rfl := Option.some.inj h
      exact ⟨fun h => by cases h; assumption, .tuple length⟩
    · cases h
  · cases h

/-- The items of a tuple make of the items of a list what each makes of the one at its place. -/
theorem resultItems_eq (schemas : List Schema) (items : List Value) :
    resultItems schemas items = (schemas.zip items).map fun part => part.1.result part.2 := by
  induction schemas generalizing items with
  | nil => cases items <;> simp [resultItems]
  | cons schema schemas ih => cases items <;> simp [resultItems, ih]

/-- The result of a list under one schema is made of the results of its items. -/
theorem result_array (element : Schema) (m : Modifiers) (items : List Value) :
    (array element m).result (.array items) = .array (items.map element.result) := by
  simp only [result]

/-- The result of a tuple is made of what each schema makes of the item at its place. -/
theorem result_tuple (schemas : List Schema) (m : Modifiers) (items : List Value) :
    (tuple schemas m).result (.array items) =
      .array ((schemas.zip items).map fun part => part.1.result part.2) := by
  simp only [result, resultItems_eq]

/-- The result of a list is made of the results of its parts. -/
theorem result_list {schema : Schema} {input : Value} {parts : List (Schema × Value)}
    (h : schema.listParts? input = some parts) :
    schema.result input = .array (parts.map fun part => part.1.result part.2) := by
  unfold listParts? at h
  split at h
  · obtain rfl := Option.some.inj h
    rw [result_array, List.map_map]
    rfl
  · split at h
    · obtain rfl := Option.some.inj h
      exact result_tuple ..
    · cases h
  · cases h

/-- An object is accepted exactly if the values under all declared names are. -/
theorem accepts_object {properties : List (String × Schema)} {m : Modifiers}
    {entries : List (String × Value)} :
    (object properties m).Accepts (.object entries) ↔
      ∀ p ∈ properties, p.2.Accepts ((Value.object entries).get p.1) :=
  ⟨fun h => by cases h; assumption, .object⟩

/-- The result of an object is made of the results of its declared properties. -/
theorem result_object (properties : List (String × Schema)) (m : Modifiers)
    (entries : List (String × Value)) :
    (object properties m).result (.object entries) =
      .object (definedEntries (properties.map fun p =>
        (p.1, p.2.result ((Value.object entries).get p.1)))) := by
  have h : ∀ input, resultProperties properties input =
      properties.map fun p => (p.1, p.2.result (input.get p.1)) := by
    intro input
    induction properties with
    | nil => simp [resultProperties]
    | cons p rest ih => simp [resultProperties, ih]
  simp [result, h]

/-- The result of a record is made of the results of its values. -/
theorem result_record (keys : KeyCheck) (values : Schema) (m : Modifiers)
    (entries : List (String × Value)) :
    (record keys values m).result (.object entries) =
      .object (definedEntries (entries.map fun e => (e.1, values.result e.2))) := by
  simp [result]

/-- A record is accepted exactly if all keys and all values are and no key is missing. -/
theorem accepts_record {keys : KeyCheck} {values : Schema} {m : Modifiers}
    {entries : List (String × Value)} :
    (record keys values m).Accepts (.object entries) ↔
      (∀ e ∈ entries, keys.Accepts e.1) ∧ (∀ e ∈ entries, values.Accepts e.2) ∧
        missingIn keys values entries = [] := by
  rw [missingIn_eq_nil]
  exact ⟨fun h => by cases h; exact ⟨‹_›, ‹_›, ‹_›⟩, fun ⟨hkeys, hvalues, complete⟩ =>
    .record hkeys hvalues complete⟩

/-- The verdict passes with the result on what the schema accepts, and fails on all else. -/
theorem verdict_decides (schema : Schema) (input : Value) :
    (schema.verdict input).Decides (schema.Accepts input) (schema.result input) := by
  induction schema, input using walk_induct with
  | settled h =>
    rw [verdict_settled h]
    exact verdict_of_settled h
  | @union first second third m input present ih =>
    rw [verdict_union first second third m present, accepts_union present]
    exact ofMembers_of_accepts m present ih
  | @list schema input parts h ih =>
    rw [verdict_list h, accepts_list h, result_list h]
    constructor
    · intro haccepts
      exact Verdict.ofItems_map_valid fun part hp => (ih part hp).1 (haccepts part hp)
    · intro hrejects
      simp only [not_forall] at hrejects
      obtain ⟨part, hp, hrejected⟩ := hrejects
      rw [Verdict.ofItems_invalid]
      exact ⟨_, List.mem_map_of_mem hp, (ih part hp).2 hrejected⟩
  | @object properties m entries ih =>
    rw [verdict_object, accepts_object, result_object]
    constructor
    · intro haccepts
      exact Verdict.ofEntries_map_valid fun p hp => (ih p hp).1 (haccepts p hp)
    · intro hrejects
      simp only [not_forall] at hrejects
      obtain ⟨p, hp, hrejected⟩ := hrejects
      rw [Verdict.ofEntries_invalid]
      exact ⟨_, List.mem_map_of_mem hp, (ih p hp).2 hrejected⟩
  | @record keys values m entries ih =>
    rw [accepts_record, result_record]
    constructor
    · rintro ⟨hkeys, hvalues, hmissing⟩
      rw [verdict_record, hmissing, List.map_nil, List.append_nil]
      refine Verdict.ofEntries_map_valid fun e he => ?_
      have hkey : (keys.verdict e.1).outcome ≠ .invalid :=
        mt (keys.verdict_invalid e.1).1 (not_not.2 (hkeys e he))
      rw [Verdict.ofKeyed_of_ne_invalid hkey]
      exact (ih e he).1 (hvalues e he)
    · intro hrejects
      rw [verdict_record_invalid]
      -- If nothing has failed and no key is missing, the record is accepted after all.
      by_contra hpasses
      simp only [not_or, not_exists, not_and, not_not] at hpasses
      refine hrejects ⟨fun e he => ?_, fun e he => ?_, hpasses.2⟩
      · exact not_not.1 (mt (keys.verdict_invalid e.1).2 (hpasses.1 e he).1)
      · exact not_not.1 (mt (ih e he).2 (hpasses.1 e he).2)

/-- A walk decides what a schema accepts. -/
instance (schema : Schema) (input : Value) : Decidable (schema.Accepts input) :=
  decidable_of_iff ((schema.verdict input).outcome.isValid = true) <| by
    obtain ⟨haccepts, hrejects⟩ := schema.verdict_decides input
    rw [Outcome.isValid_iff]
    refine ⟨fun hvalid => not_not.1 (mt hrejects hvalid), fun h => ?_⟩
    simp [haccepts h]

/-- A walk passes exactly on the values that the schema accepts, with the result of the schema, and
fails on all others. -/
theorem outcome_iff_accepts (schema : Schema) (input : Value) (path : String) (log : Log) :
    (∀ value, (schema.walk input path log).1.outcome = .valid value ↔
        schema.Accepts input ∧ value = schema.result input) ∧
      ((schema.walk input path log).1.outcome = .invalid ↔ ¬ schema.Accepts input) := by
  rw [walk_eq]
  obtain ⟨haccepts, hrejects⟩ := schema.verdict_decides input
  by_cases h : schema.Accepts input
  · simp [haccepts h, h, eq_comm]
  · simp [hrejects h, h]

/-- An object with a name and perhaps a note. -/
def noted : Schema :=
  objectOf [("name", primitive .string), ("note", (primitive .string).optional)]

/-- Of an object with a name and a key that is not declared the name is left, and the note may be
absent. Without the name, or with a note that is no text, an object is not accepted. -/
theorem outcome_iff_accepts_noted :
    noted.Accepts (.object [("more", .null), ("name", .string "x")]) ∧
      noted.result (.object [("more", .null), ("name", .string "x")]) =
        .object [("name", .string "x")] ∧
      (noted.walk (.object [("more", .null), ("name", .string "x")]) "root" #[]).1.outcome =
        .valid (.object [("name", .string "x")]) ∧
      ¬ noted.Accepts (.object [("more", .null)]) ∧
      (noted.walk (.object [("more", .null)]) "root" #[]).1.outcome = .invalid ∧
      ¬ noted.Accepts (.object [("name", .string "x"), ("note", .null)]) ∧
      (noted.walk (.object [("name", .string "x"), ("note", .null)]) "root" #[]).1.outcome =
        .invalid := by
  have hname : (primitive .string).Accepts (.string "x") :=
    .leaf ⟨nofun, nofun⟩ (.primitive (.string "x"))
  have haccepts : noted.Accepts (.object [("more", .null), ("name", .string "x")]) := by
    refine .object (List.forall_mem_cons.2 ⟨hname, List.forall_mem_singleton.2 ?_⟩)
    exact .undefined rfl
  have hresult : noted.result (.object [("more", .null), ("name", .string "x")]) =
      .object [("name", .string "x")] := by
    have hleft : (primitive .string).result (.string "x") = .string "x" :=
      result_leaf ⟨nofun, nofun⟩ (.primitive (.string "x"))
    have habsent : (primitive .string).optional.result .undefined = .undefined := by rw [result]
    calc noted.result (.object [("more", .null), ("name", .string "x")])
      _ = .object (definedEntries [("name", (primitive .string).result (.string "x")),
            ("note", (primitive .string).optional.result .undefined)]) := result_object _ _ _
      _ = .object [("name", .string "x")] := by
        rw [hleft, habsent]
        rfl
  have hnameless : ¬ noted.Accepts (.object [("more", .null)]) := by
    intro h
    have habsent := accepts_object.1 h _ List.mem_cons_self
    cases (accepts_undefined _).1 habsent
  have hnull : ¬ noted.Accepts (.object [("name", .string "x"), ("note", .null)]) := by
    intro h
    have hnote := accepts_object.1 h _ (List.mem_cons_of_mem _ List.mem_cons_self)
    cases (accepts_null _).1 hnote
  refine ⟨haccepts, hresult, ?_, hnameless, ?_, hnull, ?_⟩
  · exact ((outcome_iff_accepts noted _ "root" #[]).1 _).2 ⟨haccepts, hresult.symm⟩
  · exact (outcome_iff_accepts noted _ "root" #[]).2.2 hnameless
  · exact (outcome_iff_accepts noted _ "root" #[]).2.2 hnull

example : ¬ (recordOf (.options [.string "a", .string "b"]) (primitive .number).optional).Accepts
    (.object [("c", .undefined)]) := by decide

end Schema

end Conform

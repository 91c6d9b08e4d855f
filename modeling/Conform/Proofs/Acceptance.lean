import Conform.Proofs.Context
import Conform.Proofs.Grammar

/-!
# Accepted values and their results

What a schema makes of a value that it accepts is made step by step: nothing at null, at absence and
at a check of single values, the choice of a member at a union, and at a container the results of
its parts. `accepts_induct` is induction along these steps. It has one case for each of them, with
the result beside the value, and no case of a value that is rejected.

A union chooses the first member that accepts, which is `firstAccepting`. A property that a value
has by its parts is handed on to the result (`result_of_parts`), unless a parser loses it.
`evaluate_valid` and `evaluate_isValid` say of whole evaluations what the grammar decides.
-/

namespace Conform

/-- Only absence is absent. -/
theorem Value.isUndefined_iff {value : Value} : value.isUndefined = true ↔ value = .undefined := by
  cases value <;> simp [isUndefined]

/-- An absent entry is left out, and any other is kept in its place. -/
theorem definedEntries_cons (e : String × Value) (rest : List (String × Value)) :
    definedEntries (e :: rest) =
      if e.2.isUndefined then definedEntries rest else e :: definedEntries rest := by
  unfold definedEntries
  rw [List.filter_cons]
  cases e.2.isUndefined <;> rfl

/-- Where nothing is absent nothing is left out. -/
theorem definedEntries_eq_self {entries : List (String × Value)}
    (h : ∀ e ∈ entries, e.2 ≠ .undefined) : definedEntries entries = entries := by
  refine List.filter_eq_self.2 fun e he => ?_
  have hdefined : e.2.isUndefined = false :=
    Bool.eq_false_iff.2 fun hundefined => h e he (Value.isUndefined_iff.1 hundefined)
  rw [hdefined]
  rfl

/-- What an object without its absent entries has under a name is what it has with them. -/
theorem get_definedEntries {entries : List (String × Value)} (h : Entries.Distinct entries)
    (key : String) :
    (Value.object (definedEntries entries)).get key = (Value.object entries).get key := by
  induction entries with
  | nil => rfl
  | cons e rest ih =>
    obtain ⟨he, hrest⟩ := List.nodup_cons.1 h
    specialize ih hrest
    simp only [Value.get] at ih ⊢
    rw [definedEntries_cons, Entries.get?_cons]
    by_cases hk : e.1 = key
    · -- No other entry has the name, so it is absent if this one is.
      have hnone : Entries.get? key rest = none := by
        rw [← Option.not_isSome_iff_eq_none, Entries.get?_isSome]
        exact hk ▸ he
      rw [if_pos hk]
      split
      · rename_i hundefined
        rw [ih, hnone, Value.isUndefined_iff.1 hundefined]
        rfl
      · rw [Entries.get?_cons, if_pos hk]
    · rw [if_neg hk]
      split
      · exact ih
      · rw [Entries.get?_cons, if_neg hk]
        exact ih

/-- An entry is kept if it is not absent. -/
theorem mem_definedEntries {entries : List (String × Value)} {e : String × Value} :
    e ∈ definedEntries entries ↔ e ∈ entries ∧ e.2 ≠ .undefined := by
  unfold definedEntries
  rw [List.mem_filter, Ne, ← Value.isUndefined_iff]
  simp

/-- The names of entries that are made one for each member of a list and are not absent. -/
theorem keys_definedEntries_map {α : Type} (l : List α) (name : α → String) (f : α → Value) :
    Entries.keys (definedEntries (l.map fun a => (name a, f a))) =
      (l.filter fun a => !(f a).isUndefined).map name := by
  unfold Entries.keys definedEntries
  rw [List.filter_map, List.map_map]
  rfl

/-- An entry that is kept is one of those that were made, and is not absent. -/
theorem mem_definedEntries_map {α : Type} {l : List α} {name : α → String} {f : α → Value}
    {key : String} {value : Value}
    (h : (key, value) ∈ definedEntries (l.map fun a => (name a, f a))) :
    ∃ a ∈ l, name a = key ∧ f a = value ∧ value ≠ .undefined := by
  obtain ⟨hmem, hdefined⟩ := mem_definedEntries.1 h
  obtain ⟨a, ha, heq⟩ := List.mem_map.1 hmem
  obtain ⟨rfl, rfl⟩ := Prod.mk.inj heq
  exact ⟨a, ha, rfl, rfl, hdefined⟩

namespace Schema

/-- What a schema makes of absence is absence. -/
theorem result_undefined (schema : Schema) : schema.result .undefined = .undefined := by
  rw [result]

/-- What a schema makes of null is null. -/
theorem result_null (schema : Schema) : schema.result .null = .null := by
  rw [result]

/-! ## The member that a union chooses -/

/-- The first of the members that accepts the value. -/
def firstAccepting (members : List Schema) (input : Value) : Option Schema :=
  members.find? fun member => member.Accepts input

/-- A member that accepts is chosen, and else the choice is among the others. -/
theorem firstAccepting_cons (member : Schema) (rest : List Schema) (input : Value) :
    firstAccepting (member :: rest) input =
      if member.Accepts input then some member else firstAccepting rest input := by
  unfold firstAccepting
  rw [List.find?_cons]
  split <;> simp_all

/-- The chosen member is one of the members, and accepts. -/
theorem mem_of_firstAccepting {members : List Schema} {input : Value} {member : Schema}
    (h : firstAccepting members input = some member) :
    member ∈ members ∧ member.Accepts input := by
  unfold firstAccepting at h
  exact ⟨List.mem_of_find?_eq_some h, by simpa using List.find?_some h⟩

/-- Where a member accepts, one is chosen. -/
theorem exists_firstAccepting {members : List Schema} {input : Value}
    (h : ∃ member ∈ members, member.Accepts input) :
    ∃ member, firstAccepting members input = some member := by
  rw [← Option.isSome_iff_exists, firstAccepting, List.find?_isSome]
  simpa using h

/-- If the member chosen for one value accepts another, and the one chosen for the other accepts the
first, they are the same. -/
theorem firstAccepting_unique {members : List Schema} {input other : Value} {s t : Schema}
    (hs : firstAccepting members input = some s) (ht : firstAccepting members other = some t)
    (hother : s.Accepts other) (hinput : t.Accepts input) : t = s := by
  induction members with
  | nil => cases hs
  | cons member rest ih =>
    rw [firstAccepting_cons] at hs ht
    by_cases h : member.Accepts input
    · -- The first member is chosen for the one value, so it is for the other.
      rw [if_pos h] at hs
      obtain rfl := Option.some.inj hs
      rw [if_pos hother] at ht
      exact (Option.some.inj ht).symm
    · rw [if_neg h] at hs
      by_cases h' : member.Accepts other
      · rw [if_pos h'] at ht
        obtain rfl := Option.some.inj ht
        exact absurd hinput h
      · rw [if_neg h'] at ht
        exact ih hs ht

/-- The result of a union is that of the member it chooses. -/
theorem result_union_of_firstAccepting {first second : Schema} {third : Option Schema}
    (m : Modifiers) {input : Value} (present : input.Present) {member : Schema}
    (h : firstAccepting (unionMembers first second third) input = some member) :
    (union first second third m).result input = member.result input := by
  rw [result_union first second third m present]
  rw [unionMembers, firstAccepting_cons, firstAccepting_cons] at h
  by_cases hfirst : first.Accepts input
  · rw [if_pos hfirst] at h ⊢
    rw [Option.some.inj h]
  · rw [if_neg hfirst] at h ⊢
    by_cases hsecond : second.Accepts input
    · rw [if_pos hsecond] at h ⊢
      rw [Option.some.inj h]
    · rw [if_neg hsecond] at h ⊢
      obtain rfl : third = some member := by simpa using (mem_of_firstAccepting h).1
      rw [resultThird]

/-! ## Parts of lists -/

/-- A list that is walked is made of the values of its parts. -/
theorem input_of_listParts {schema : Schema} {input : Value} {parts : List (Schema × Value)}
    (h : schema.listParts? input = some parts) : input = .array (parts.map Prod.snd) := by
  unfold listParts? at h
  split at h
  · obtain rfl := Option.some.inj h
    simp [Function.comp_def]
  · split at h
    · rename_i hlength
      obtain rfl := Option.some.inj h
      rw [List.map_snd_zip (Nat.le_of_eq hlength)]
    · cases h
  · cases h

/-- A list of as many values is walked under the same schemas. -/
theorem listParts_map {schema : Schema} {input : Value} {parts : List (Schema × Value)}
    (h : schema.listParts? input = some parts) (f : Schema × Value → Value) :
    schema.listParts? (.array (parts.map f)) = some (parts.map fun part => (part.1, f part)) := by
  unfold listParts? at h
  split at h
  · obtain rfl := Option.some.inj h
    simp [listParts?]
  · rename_i schemas m items
    split at h
    · rename_i hlength
      obtain rfl := Option.some.inj h
      have hfst : (schemas.zip items).map Prod.fst = schemas :=
        List.map_fst_zip (Nat.le_of_eq hlength.symm)
      have hzip : schemas.zip ((schemas.zip items).map f) =
          (schemas.zip items).map fun part => (part.1, f part) := by
        rw [← List.zip_map', hfst]
      simp [listParts?, hlength, hzip]
    · cases h
  · cases h

/-! ## Induction along an accepted value -/

/-- A property of schemas, values and results holds of all accepted values if it does at each step,
given that it does of the schemas and values the step goes on to. -/
theorem accepts_induct {motive : Schema → Value → Value → Prop}
    (null : ∀ {schema}, schema.modifiers.nullable = true → motive schema .null .null)
    (undefined : ∀ {schema}, schema.modifiers.optional = true →
      motive schema .undefined .undefined)
    (leaf : ∀ {check m input value}, input.Present → check.Answers input value →
      motive (.leaf check m) input value)
    (union : ∀ {first second third m input member}, input.Present →
      firstAccepting (unionMembers first second third) input = some member →
      motive member input (member.result input) →
      motive (.union first second third m) input (member.result input))
    (list : ∀ {schema input parts}, schema.listParts? input = some parts →
      (∀ part ∈ parts, part.1.Accepts part.2) →
      (∀ part ∈ parts, motive part.1 part.2 (part.1.result part.2)) →
      motive schema input (.array (parts.map fun part => part.1.result part.2)))
    (object : ∀ {properties m entries},
      (∀ p ∈ properties, p.2.Accepts ((Value.object entries).get p.1)) →
      (∀ p ∈ properties, motive p.2 ((Value.object entries).get p.1)
        (p.2.result ((Value.object entries).get p.1))) →
      motive (.object properties m) (.object entries)
        (.object (definedEntries (properties.map fun p =>
          (p.1, p.2.result ((Value.object entries).get p.1))))))
    (record : ∀ {keys values m entries}, (∀ e ∈ entries, keys.Accepts e.1) →
      (∀ e ∈ entries, values.Accepts e.2) → missingIn keys values entries = [] →
      (∀ e ∈ entries, motive values e.2 (values.result e.2)) →
      motive (.record keys values m) (.object entries)
        (.object (definedEntries (entries.map fun e => (e.1, values.result e.2)))))
    (schema : Schema) (input : Value) (h : schema.Accepts input) :
    motive schema input (schema.result input) := by
  induction schema generalizing input with
  | node schema ih =>
    cases h with
    | null h => simpa [result] using null h
    | undefined h => simpa [result] using undefined h
    | leaf present h =>
      rw [result_leaf present h]
      exact leaf present h
    | union present hm h =>
      obtain ⟨member, hmember⟩ := exists_firstAccepting ⟨_, hm, h⟩
      obtain ⟨hmem, haccepts⟩ := mem_of_firstAccepting hmember
      rw [result_union_of_firstAccepting _ present hmember]
      exact union present hmember (ih member hmem input haccepts)
    | @array element m items h =>
      -- A list under one schema and a tuple are walked alike, as the pairs in their parts.
      have hparts : (Schema.array element m).listParts? (.array items) =
          some (items.map (element, ·)) := rfl
      have haccepts := (accepts_list hparts).1 (.array h)
      rw [result_list hparts]
      refine list hparts haccepts fun part hp => ?_
      exact ih part.1 (mem_of_listParts hparts hp).1 part.2 (haccepts part hp)
    | @tuple schemas m items length h =>
      have hparts : (Schema.tuple schemas m).listParts? (.array items) =
          some (schemas.zip items) := if_pos length
      rw [result_list hparts]
      refine list hparts h fun part hp => ?_
      exact ih part.1 (mem_of_listParts hparts hp).1 part.2 (h part hp)
    | object h =>
      rw [result_object]
      exact object h fun p hp => ih p.2 (List.mem_map_of_mem hp) _ (h p hp)
    | record hkeys hvalues complete =>
      rw [result_record]
      refine record hkeys hvalues ((missingIn_eq_nil ..).2 complete) fun e he => ?_
      exact ih _ (List.mem_singleton_self _) e.2 (hvalues e he)

/-- The result of an accepted value has a property of the value that is one of parts, if what parsers
make of values with the property has it. -/
theorem result_of_parts {P : Value → Prop} (hP : Value.OfParts P) (schema : Schema) (input : Value)
    (hparsers : schema.EveryParser fun p =>
      ∀ input value, P input → p.parse input = .ok value → P value)
    (hnames : schema.NamesDistinct) (hinput : P input) (h : schema.Accepts input) :
    P (schema.result input) := by
  -- What is known of the schema and of the input is handed down to their parts.
  revert hparsers hnames hinput
  refine accepts_induct (motive := fun schema input r =>
    schema.EveryParser _ → schema.NamesDistinct → P input → P r) ?null ?undefined ?leaf ?union
    ?list ?object ?record schema input h
  case null => exact fun _ _ _ hinput => hinput
  case undefined => exact fun _ _ _ hinput => hinput
  case leaf =>
    intro check m input value present hanswers hparsers _ hinput
    cases hanswers with
    | primitive => exact hinput
    | options => exact hinput
    | parser hparse => exact hparsers.here _ rfl input value hinput hparse
  case union =>
    intro first second third m input member present hmember ih hparsers hnames hinput
    have hchild := (mem_of_firstAccepting hmember).1
    exact ih (hparsers.child hchild) (hnames.child hchild) hinput
  case list =>
    intro schema input parts hparts _ ih hparsers hnames hinput
    obtain rfl := input_of_listParts hparts
    rw [hP.array, List.forall_mem_map] at hinput ⊢
    intro part hp
    have hchild := (mem_of_listParts hparts hp).1
    exact ih part hp (hparsers.child hchild) (hnames.child hchild) (hinput part hp)
  case object =>
    intro properties m entries _ ih hparsers hnames hinput
    have hdistinct : Entries.Distinct (properties.map fun p =>
        (p.1, p.2.result ((Value.object entries).get p.1))) := Entries.distinct_map hnames.here _
    refine hP.object.2 ⟨distinct_definedEntries hdistinct, fun e he => ?_⟩
    obtain ⟨p, hp, -, hvalue, hdefined⟩ := mem_definedEntries_map he
    have hchild := mem_children_object hp m
    rw [← hvalue]
    rcases hP.get hinput p.1 with hget | hget
    · -- What is missing and accepted stays absent, and is not among the entries.
      rw [hget, result_undefined] at hvalue
      exact absurd hvalue.symm hdefined
    · exact ih p hp (hparsers.child hchild) (hnames.child hchild) hget
  case record =>
    intro keys values m entries _ _ _ ih hparsers hnames hinput
    obtain ⟨hdistinct, hvalues⟩ := hP.object.1 hinput
    have hkept : Entries.Distinct (entries.map fun e => (e.1, values.result e.2)) :=
      Entries.distinct_map hdistinct _
    refine hP.object.2 ⟨distinct_definedEntries hkept, fun e he => ?_⟩
    obtain ⟨a, ha, -, hvalue, -⟩ := mem_definedEntries_map he
    have hchild := mem_children_record keys values m
    rw [← hvalue]
    exact ih a ha (hparsers.child hchild) (hnames.child hchild) (hvalues a ha)

/-- The verdict on a value passes exactly if the value is accepted, with its result. -/
theorem verdict_valid {schema : Schema} {input r : Value} :
    (schema.verdict input).outcome = .valid r ↔ schema.Accepts input ∧ schema.result input = r := by
  obtain ⟨haccepts, hrejects⟩ := schema.verdict_decides input
  by_cases h : schema.Accepts input
  · simp [haccepts h, h]
  · simp [hrejects h, h]

/-! ## Walks and evaluations -/

/-- A walk passes exactly if the value is accepted, with its result. -/
theorem walk_valid {schema : Schema} {input r : Value} {path : String} {log : Log} :
    (schema.walk input path log).1.outcome = .valid r ↔
      schema.Accepts input ∧ schema.result input = r := by
  rw [walk_eq]
  exact verdict_valid

/-- A walk has a result exactly if the value is accepted. -/
theorem walk_isValid {schema : Schema} {input : Value} {path : String} {log : Log} :
    (schema.walk input path log).1.outcome.isValid = true ↔ schema.Accepts input := by
  constructor
  · intro h
    exact (walk_valid.1 (Outcome.eq_valid (Outcome.isValid_iff.1 h))).1
  · intro h
    rw [walk_valid.2 ⟨h, rfl⟩]
    rfl

/-- An evaluation is the verdict on the value and the messages of a walk from the root. -/
theorem evaluate_eq (schema : Schema) (input : Value) :
    schema.evaluate input =
      ⟨(schema.verdict input).outcome, (schema.verdict input).validation,
        (schema.messages input rootLabel).toArray⟩ := by
  unfold evaluate
  rw [evaluateAt_eq, toArray_messages]
  rfl

/-- An evaluation passes exactly if the value is accepted, with its result. -/
theorem evaluate_valid {schema : Schema} {input r : Value} :
    (schema.evaluate input).outcome = .valid r ↔
      schema.Accepts input ∧ schema.result input = r := by
  rw [evaluate_eq]
  exact verdict_valid

/-- An evaluation has a result exactly if the value is accepted. -/
theorem evaluate_isValid {schema : Schema} {input : Value} :
    (schema.evaluate input).isValid = true ↔ schema.Accepts input := by
  constructor
  · intro h
    cases houtcome : (schema.evaluate input).outcome with
    | valid r => exact (evaluate_valid.1 houtcome).1
    | invalid => simp [Evaluation.isValid, houtcome, Outcome.isValid] at h
  · intro h
    simp [Evaluation.isValid, evaluate_valid.2 ⟨h, rfl⟩, Outcome.isValid]

/-- The messages of an evaluation are those of a walk from the root. -/
theorem evaluate_messages (schema : Schema) (input : Value) :
    (schema.evaluate input).messages = (schema.messages input rootLabel).toArray := by
  rw [evaluate_eq]

end Schema

end Conform

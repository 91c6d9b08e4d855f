import Conform.Proofs.Verdict

/-!
# The outcome and the tree

A walk comes to an outcome and to a tree of errors, which are put together side by side. A tree
with errors always goes with a failure, but not the other way around. The error of a rejected key
takes the place of its value's tree only if that tree is clean, and the tree of a list, an object or
a record is never clean: where such a value passes, the error of its key is in the log alone.

`Schema.HidesKey` says that a walk comes across such a key, in terms of the schema and the value,
and `outcome_invalid_iff_hasErrors` that it is the only failure without an error in the tree. The
induction follows the walk, and `entry_invalid_iff` is its case of an entry of a record.
-/

namespace Conform

/-- Whether the tree is that of a container. -/
def Validation.isContainer : Validation → Bool
  | .list _ | .map _ => true
  | .clean | .leaf _ => false

namespace Schema

/-- Whether the schema is that of a list, a tuple, an object or a record and the value has its
shape. -/
def opens : Schema → Value → Bool
  | .array _ _, .array _ => true
  | .tuple schemas _, .array items => items.length == schemas.length
  | .object _ _, .object _ => true
  | .record _ _ _, .object _ => true
  | _, _ => false

/-- A settled node does not open its value. -/
theorem not_opens_of_settled {schema : Schema} {input : Value} {v : Verdict}
    (h : Settled schema input v) : schema.opens input = false := by
  cases h with
  | null => cases schema <;> rfl
  | undefined => cases schema <;> rfl
  | leaf present => rfl
  | length shape => exact beq_eq_false_iff_ne.2 shape
  | array present shape | tuple present shape | object present shape | record present shape =>
    cases input <;> first | rfl | exact absurd rfl (shape _)

/-- The tree of a walk is a container exactly if the schema opens the value. -/
theorem isContainer_verdict (schema : Schema) (input : Value) :
    (schema.verdict input).validation.isContainer = schema.opens input := by
  cases schema.step input with
  | settled h =>
    rw [verdict_settled h, not_opens_of_settled h]
    rcases h.isPlain with ⟨value, rfl⟩ | ⟨error, rfl⟩ <;> rfl
  | @union first second third m input present =>
    rcases isPlain_verdict_union first second third m present with ⟨value, h⟩ | ⟨error, h⟩ <;>
      rw [h] <;> cases input <;> rfl
  | list h =>
    rw [verdict_list h]
    unfold listParts? at h
    split at h
    · rfl
    · split at h
      · rename_i shape
        simp [Verdict.ofItems, Validation.isContainer, opens, shape]
      · cases h
    · cases h
  | object => rw [verdict_object]; rfl
  | record => rw [verdict_record]; rfl

/-- The walk comes across a rejected key of a record whose value the schema of values opens, so that
the error of the key has no place in the tree. Members of unions do not count, as their trees are
thrown away. -/
inductive HidesKey : Schema → Value → Prop
  | key {keys : KeyCheck} {values : Schema} {m : Modifiers} {entries : List (String × Value)}
    {key : String} {value : Value} {error : String} (h : (key, value) ∈ entries)
    (rejected : keys.toLeaf.check (.string key) = .error error)
    (opened : values.opens value = true) : HidesKey (.record keys values m) (.object entries)
  | part {schema : Schema} {input : Value} {parts : List (Schema × Value)}
    {part : Schema × Value} (h : schema.listParts? input = some parts) (hp : part ∈ parts)
    (hidden : HidesKey part.1 part.2) : HidesKey schema input
  | property {properties : List (String × Schema)} {m : Modifiers}
    {entries : List (String × Value)} {p : String × Schema} (hp : p ∈ properties)
    (hidden : HidesKey p.2 ((Value.object entries).get p.1)) :
    HidesKey (.object properties m) (.object entries)
  | value {keys : KeyCheck} {values : Schema} {m : Modifiers} {entries : List (String × Value)}
    {e : String × Value} (he : e ∈ entries) (hidden : HidesKey values e.2) :
    HidesKey (.record keys values m) (.object entries)

/-- An entry of a record fails exactly if its tree has errors, its key is hidden, or its value hides
one. -/
theorem entry_invalid_iff (keys : KeyCheck) (values : Schema) (key : String) (value : Value)
    (ih : (values.verdict value).outcome = .invalid ↔
      (values.verdict value).validation.hasErrors = true ∨ values.HidesKey value) :
    (Verdict.ofKeyed (keys.verdict key) (values.verdict value)).outcome = .invalid ↔
      (Verdict.ofKeyed (keys.verdict key) (values.verdict value)).validation.hasErrors = true ∨
        ((∃ error, keys.toLeaf.check (.string key) = .error error) ∧
          values.opens value = true) ∨ values.HidesKey value := by
  rw [← isContainer_verdict]
  unfold KeyCheck.verdict
  cases keys.toLeaf.check (.string key) with
  | ok r => simpa [Verdict.ofCheck, Verdict.pass, Verdict.ofKeyed] using ih
  | error e =>
    -- The entry has failed, and its tree is the key's error or a tree that is not clean.
    cases hv : (values.verdict value).validation <;>
      simp [Verdict.ofCheck, Verdict.fail, Verdict.ofKeyed, hv, Validation.hasErrors,
        Validation.isContainer]

/-- A settled node hides no key. -/
theorem not_hidesKey_of_settled {schema : Schema} {input : Value} {v : Verdict}
    (h : Settled schema input v) : ¬ schema.HidesKey input := by
  intro hidden
  have hopens := not_opens_of_settled h
  cases hidden with
  | part hparts hp =>
    rw [← isContainer_verdict, verdict_list hparts] at hopens
    cases hopens
  | _ => cases hopens

/-- A list hides a key exactly if one of its parts does. -/
theorem hidesKey_list {schema : Schema} {input : Value} {parts : List (Schema × Value)}
    (h : schema.listParts? input = some parts) :
    schema.HidesKey input ↔ ∃ part ∈ parts, part.1.HidesKey part.2 := by
  constructor
  · intro hidden
    cases hidden with
    | part hparts hp hidden =>
      obtain rfl := Option.some.inj (h.symm.trans hparts)
      exact ⟨_, hp, hidden⟩
    | _ => cases h
  · rintro ⟨part, hp, hidden⟩
    exact .part h hp hidden

/-- An object hides a key exactly if one of its declared properties does. -/
theorem hidesKey_object {properties : List (String × Schema)} {m : Modifiers}
    {entries : List (String × Value)} :
    (object properties m).HidesKey (.object entries) ↔
      ∃ p ∈ properties, p.2.HidesKey ((Value.object entries).get p.1) := by
  constructor
  · intro hidden
    cases hidden with
    | part hparts => cases hparts
    | property hp hidden => exact ⟨_, hp, hidden⟩
  · rintro ⟨p, hp, hidden⟩
    exact .property hp hidden

/-- A record hides a key exactly if it hides one of its own or one of its values does. -/
theorem hidesKey_record {keys : KeyCheck} {values : Schema} {m : Modifiers}
    {entries : List (String × Value)} :
    (record keys values m).HidesKey (.object entries) ↔
      ∃ e ∈ entries, ((∃ error, keys.toLeaf.check (.string e.1) = .error error) ∧
        values.opens e.2 = true) ∨ values.HidesKey e.2 := by
  constructor
  · intro hidden
    cases hidden with
    | key h rejected opened => exact ⟨_, h, .inl ⟨⟨_, rejected⟩, opened⟩⟩
    | part hparts => cases hparts
    | value he hidden => exact ⟨_, he, .inr hidden⟩
  · rintro ⟨e, he, ⟨⟨error, rejected⟩, opened⟩ | hidden⟩
    · exact .key he rejected opened
    · exact .value he hidden

/-- Where a property splits in two at every member, so does its existence. -/
theorem exists_mem_iff_or {α : Type} {l : List α} {p q r : α → Prop}
    (h : ∀ a ∈ l, (p a ↔ q a ∨ r a)) :
    (∃ a ∈ l, p a) ↔ (∃ a ∈ l, q a) ∨ ∃ a ∈ l, r a := by
  rw [← exists_or]
  simp only [← and_or_left]
  exact exists_congr fun a => and_congr_right (h a)

/-- A walk fails exactly if its tree has errors or it hides a key. -/
theorem verdict_invalid_iff (schema : Schema) (input : Value) :
    (schema.verdict input).outcome = .invalid ↔
      (schema.verdict input).validation.hasErrors = true ∨ schema.HidesKey input := by
  induction schema, input using walk_induct with
  | settled h =>
    rw [verdict_settled h]
    have := not_hidesKey_of_settled h
    rcases h.isPlain with ⟨value, rfl⟩ | ⟨error, rfl⟩
    · simp [Verdict.pass, Validation.hasErrors, this]
    · simp [Verdict.fail, Validation.hasErrors]
  | @union first second third m input present =>
    -- The verdict of a union has no tree of parts, so nothing can be hidden there.
    have : ¬ (union first second third m).HidesKey input := by
      intro hidden
      cases hidden with
      | part hparts => cases hparts
    rcases isPlain_verdict_union first second third m present with ⟨value, h⟩ | ⟨error, h⟩
    · simp [h, Verdict.pass, Validation.hasErrors, this]
    · simp [h, Verdict.fail, Validation.hasErrors]
  | @list schema input parts h ih =>
    rw [verdict_list h, hidesKey_list h, Verdict.ofItems_invalid, Verdict.ofItems_hasErrors]
    simp only [List.mem_map, exists_exists_and_eq_and]
    exact exists_mem_iff_or ih
  | @object properties m entries ih =>
    rw [verdict_object, hidesKey_object, Verdict.ofEntries_invalid, Verdict.ofEntries_hasErrors]
    simp only [List.mem_map, exists_exists_and_eq_and]
    exact exists_mem_iff_or ih
  | @record keys values m entries ih =>
    rw [verdict_record, hidesKey_record, Verdict.ofEntries_invalid, Verdict.ofEntries_hasErrors]
    simp only [List.mem_append, List.mem_map, or_and_right, exists_or, exists_exists_and_eq_and]
    rw [exists_mem_iff_or fun e he => entry_invalid_iff keys values e.1 e.2 (ih e he)]
    -- A missing key fails and has its error in the tree.
    simp only [Verdict.fail, Validation.hasErrors]
    rw [or_right_comm]

/-- A walk fails exactly if its tree has errors or it hides a key, so that failures and errors go
together exactly if a hidden key is never the only error. -/
theorem outcome_invalid_iff_hasErrors (schema : Schema) (input : Value) (path : String)
    (log : Log) :
    ((schema.walk input path log).1.outcome = .invalid ↔
        (schema.walk input path log).1.validation.hasErrors = true ∨ schema.HidesKey input) ∧
      (((schema.walk input path log).1.outcome = .invalid ↔
          (schema.walk input path log).1.validation.hasErrors = true) ↔
        (schema.HidesKey input → (schema.walk input path log).1.validation.hasErrors = true)) := by
  rw [walk_eq, verdict_invalid_iff]
  exact ⟨Iff.rfl, or_iff_left_iff_imp⟩

/-- A record of lists under the key `a` alone hides the key `b` of an empty list: the walk fails,
and its tree has no errors. -/
theorem not_hasErrors_of_hidden_key :
    ¬ (((recordOf (.options [.string "a"]) (listOf (primitive .number))).walk
        (.object [("a", .array []), ("b", .array [])]) "root" #[]).1.outcome = .invalid ↔
      ((recordOf (.options [.string "a"]) (listOf (primitive .number))).walk
        (.object [("a", .array []), ("b", .array [])]) "root" #[]).1.validation.hasErrors =
          true) := by
  have h : ((recordOf (.options [.string "a"]) (listOf (primitive .number))).walk
      (.object [("a", .array []), ("b", .array [])]) "root" #[]).1 =
        ⟨.invalid, .map [("a", .list []), ("b", .list [])]⟩ := rfl
  rw [h]
  simp [Validation.hasErrors, Validation.entriesHaveErrors, Validation.itemsHaveErrors]

end Schema

end Conform

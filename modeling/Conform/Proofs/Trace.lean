import Conform.Proofs.Induction
import Conform.Walk

/-!
# Walks without their context

A walk is given a path and a log, but its verdict depends on neither, and all that it does to the
log is to add messages at the end. `Schema.walk_eq` says so, with `Schema.verdict` for the verdict
and `Schema.messages` for what is added. Everything else about walks is said of these two.

The loops of `Conform.Walk` come first: given that the walks of the parts have this form, each loop
is a `map` over the parts for the verdicts and a `flatMap` for the messages. `Schema.walk_eq` then
goes by induction on the schema, and the equations after it (`verdict_list`, `messages_record` and
so on) say what the two are for each kind of schema. A list under an element schema and a tuple
under item schemas share theirs: both are the walk of the pairs in `Schema.listParts?`.
-/

namespace Conform

/-- Neither null nor absent, so that modifiers have no say. -/
def Value.Present (value : Value) : Prop := value ≠ .null ∧ value ≠ .undefined

/-- What is not present is null or absent. -/
theorem Value.not_present_iff {value : Value} :
    ¬ value.Present ↔ value = .null ∨ value = .undefined := by
  unfold Present
  rw [← not_or, Classical.not_not]

namespace Verdict

/-- The verdict is one of a single check, with no tree of parts. -/
def IsPlain (v : Verdict) : Prop := (∃ value, v = pass value) ∨ ∃ error, v = fail error

/-- The messages that a verdict leaves at its own place: the error of a leaf. -/
def ownMessages (v : Verdict) (path : String) : List Message :=
  match v.validation with
  | .leaf error => [⟨path, error⟩]
  | _ => []

@[simp] theorem ownMessages_pass (value : Value) (path : String) :
    (pass value).ownMessages path = [] := rfl

@[simp] theorem ownMessages_fail (error path : String) :
    (fail error).ownMessages path = [⟨path, error⟩] := rfl

@[simp] theorem ownMessages_ofItems (items : List Verdict) (path : String) :
    (ofItems items).ownMessages path = [] := rfl

@[simp] theorem ownMessages_ofEntries (entries : List (String × Verdict)) (path : String) :
    (ofEntries entries).ownMessages path = [] := rfl

/-- The verdict on null and on absence is plain. -/
theorem isPlain_ofModifier (accepted : Bool) (input : Value) :
    (ofModifier accepted input).IsPlain := by
  unfold ofModifier
  split
  · exact .inl ⟨_, rfl⟩
  · exact .inr ⟨_, rfl⟩

/-- The verdict of a check of a single value is plain. -/
theorem isPlain_ofCheck (result : Except String Value) : (ofCheck result).IsPlain := by
  cases result with
  | ok value => exact .inl ⟨value, rfl⟩
  | error error => exact .inr ⟨error, rfl⟩

/-- The verdict on those of the members of a union is plain. -/
theorem isPlain_ofMembers (members : List Verdict) : (ofMembers members).IsPlain := by
  unfold ofMembers
  split
  · exact .inl ⟨_, rfl⟩
  · exact .inr ⟨_, rfl⟩

/-- Recording a verdict adds its own messages. -/
theorem recordAt_eq (v : Verdict) (path : String) (log : Log) :
    v.recordAt path log = (v, log ++ (v.ownMessages path).toArray) := by
  cases hv : v.validation <;> simp [recordAt, ownMessages, hv]

end Verdict

/-- The verdict on a key of a record. -/
def KeyCheck.verdict (keys : KeyCheck) (key : String) : Verdict :=
  .ofCheck (keys.toLeaf.check (.string key))

/-- The verdict on a key is plain. -/
theorem KeyCheck.isPlain_verdict (keys : KeyCheck) (key : String) : (keys.verdict key).IsPlain :=
  Verdict.isPlain_ofCheck _

/-- The walk gives the verdicts `verdict` and adds the messages `messages` to any log. -/
def Walk.Traces (walk : Walk) (verdict : Value → Verdict)
    (messages : Value → String → List Message) : Prop :=
  ∀ input path log, walk input path log = (verdict input, log ++ (messages input path).toArray)

/-! ## The loops -/

section

variable {walk : Walk} {verdict : Value → Verdict} {messages : Value → String → List Message}
  (h : walk.Traces verdict messages)

include h

/-- The loop over the items of a list. -/
theorem walkItems_eq (path : String) (items : List Value) (position : Nat) (log : Log) :
    walkItems walk path position items log =
      (items.map verdict, log ++ ((items.zipIdx position).flatMap fun x =>
        messages x.1 (itemPath path x.2)).toArray) := by
  induction items generalizing position log with
  | nil => simp [walkItems]
  | cons item rest ih => simp [walkItems, h item, ih]

/-- The walk of one entry of a record. -/
theorem walkEntry_eq (keys : KeyCheck) (path key : String) (value : Value) (log : Log) :
    walkEntry keys walk path key value log =
      (.ofKeyed (keys.verdict key) (verdict value),
        log ++ ((keys.verdict key).ownMessages (propertyPath path key) ++
          messages value (propertyPath path key)).toArray) := by
  simp [walkEntry, KeyCheck.verdict, Verdict.recordAt_eq, h value]

/-- The loop over the entries of a record. -/
theorem walkEntries_eq (keys : KeyCheck) (path : String) (entries : List (String × Value))
    (log : Log) :
    walkEntries keys walk path entries log =
      (entries.map fun e => (e.1, .ofKeyed (keys.verdict e.1) (verdict e.2)),
        log ++ (entries.flatMap fun e => (keys.verdict e.1).ownMessages (propertyPath path e.1) ++
          messages e.2 (propertyPath path e.1)).toArray) := by
  induction entries generalizing log with
  | nil => simp [walkEntries]
  | cons e rest ih => simp [walkEntries, walkEntry_eq h, ih]

end

/-- The loop over the missing keys of a record. -/
theorem recordMissing_eq (path : String) (missing : List String) (log : Log) :
    recordMissing path missing log =
      (missing.map fun key => (key, .fail missingProperty),
        log ++ (missing.map fun key => ⟨propertyPath path key, missingProperty⟩).toArray) := by
  induction missing generalizing log with
  | nil => simp [recordMissing]
  | cons key rest ih => simp [recordMissing, Verdict.recordAt_eq, ih]

namespace Schema

/-- The verdict of a walk, with no context. -/
def verdict (schema : Schema) (input : Value) : Verdict := (schema.walk input "" #[]).1

/-- The messages that a walk adds to the log, by the path it starts from. -/
def messages (schema : Schema) (input : Value) (path : String) : List Message :=
  (schema.walk input path #[]).2.toList

/-- The walk under the schema is its verdict and its messages. -/
def Traced (schema : Schema) : Prop := Walk.Traces schema.walk schema.verdict schema.messages

/-- A walk that has some verdict and adds some messages has its own. -/
theorem verdict_messages_of_walk {schema : Schema} {input : Value} {v : Verdict}
    {added : String → List Message}
    (h : ∀ path log, schema.walk input path log = (v, log ++ (added path).toArray)) :
    schema.verdict input = v ∧ schema.messages input = added := by
  refine ⟨?_, funext fun path => ?_⟩
  · rw [verdict, h]
  · rw [messages, h]
    simp

/-- What a walk is known to give at all paths and on all logs are its verdict and its messages. -/
theorem walk_eq_of_walk {schema : Schema} {input : Value} {v : Verdict}
    {added : String → List Message}
    (h : ∀ path log, schema.walk input path log = (v, log ++ (added path).toArray))
    (path : String) (log : Log) :
    schema.walk input path log =
      (schema.verdict input, log ++ (schema.messages input path).toArray) := by
  obtain ⟨hv, hm⟩ := verdict_messages_of_walk h
  rw [h, hv, hm]

/-- The items of a list, each with the schema it is walked under, if the list has the right
length. -/
def listParts? : Schema → Value → Option (List (Schema × Value))
  | .array element _, .array items => some (items.map (element, ·))
  | .tuple schemas _, .array items =>
    if items.length = schemas.length then some (schemas.zip items) else none
  | _, _ => none

/-- The loop over the items of a tuple. -/
theorem walkTuple_eq (schemas : List Schema) (h : ∀ s ∈ schemas, s.Traced) (path : String)
    (items : List Value) (position : Nat) (log : Log) :
    walkTuple schemas path position items log =
      ((schemas.zip items).map fun part => part.1.verdict part.2,
        log ++ (((schemas.zip items).zipIdx position).flatMap fun x =>
          x.1.1.messages x.1.2 (itemPath path x.2)).toArray) := by
  induction schemas generalizing items position log with
  | nil => simp [walkTuple]
  | cons schema schemas ih =>
    obtain ⟨hs, hrest⟩ := List.forall_mem_cons.1 h
    cases items with
    | nil => simp [walkTuple]
    | cons item items => simp [walkTuple, hs item, ih hrest]

/-- The loop over the properties of an object. -/
theorem walkProperties_eq (properties : List (String × Schema))
    (h : ∀ p ∈ properties, p.2.Traced) (input : Value) (path : String) (log : Log) :
    walkProperties properties input path log =
      (properties.map fun p => (p.1, p.2.verdict (input.get p.1)),
        log ++ (properties.flatMap fun p =>
          p.2.messages (input.get p.1) (propertyPath path p.1)).toArray) := by
  induction properties generalizing log with
  | nil => simp [walkProperties]
  | cons p rest ih =>
    obtain ⟨hp, hrest⟩ := List.forall_mem_cons.1 h
    simp [walkProperties, hp (input.get p.1), ih hrest]

/-! ## The steps of a walk -/

/-- The node is settled by its own check, with this verdict, and no part is walked. -/
inductive Settled : Schema → Value → Verdict → Prop
  | null {schema : Schema} :
    Settled schema .null (.ofModifier schema.modifiers.nullable .null)
  | undefined {schema : Schema} :
    Settled schema .undefined (.ofModifier schema.modifiers.optional .undefined)
  | leaf {check : LeafCheck} {m : Modifiers} {input : Value} (present : input.Present) :
    Settled (.leaf check m) input (.ofCheck (check.check input))
  | array {element : Schema} {m : Modifiers} {input : Value} (present : input.Present)
    (shape : ∀ items, input ≠ .array items) :
    Settled (.array element m) input (.wrongShape input "an array")
  | tuple {schemas : List Schema} {m : Modifiers} {input : Value} (present : input.Present)
    (shape : ∀ items, input ≠ .array items) :
    Settled (.tuple schemas m) input (.wrongShape input "a tuple")
  | length {schemas : List Schema} {m : Modifiers} {items : List Value}
    (shape : items.length ≠ schemas.length) :
    Settled (.tuple schemas m) (.array items)
      (.fail ("Tuple of length \"" ++ toString items.length ++ "\" should be \"" ++
        toString schemas.length ++ "\"."))
  | object {properties : List (String × Schema)} {m : Modifiers} {input : Value}
    (present : input.Present) (shape : ∀ entries, input ≠ .object entries) :
    Settled (.object properties m) input (.wrongShape input "an object")
  | record {keys : KeyCheck} {values : Schema} {m : Modifiers} {input : Value}
    (present : input.Present) (shape : ∀ entries, input ≠ .object entries) :
    Settled (.record keys values m) input (.wrongShape input "a record")

/-- What a walk does at a node: it is settled there, or goes on to the members, items, properties
or entries. -/
inductive Step : Schema → Value → Prop
  | settled {schema : Schema} {input : Value} {v : Verdict} (h : Settled schema input v) :
    Step schema input
  | union {first second : Schema} {third : Option Schema} {m : Modifiers} {input : Value}
    (present : input.Present) : Step (.union first second third m) input
  | list {schema : Schema} {input : Value} {parts : List (Schema × Value)}
    (h : schema.listParts? input = some parts) : Step schema input
  | object {properties : List (String × Schema)} {m : Modifiers}
    {entries : List (String × Value)} : Step (.object properties m) (.object entries)
  | record {keys : KeyCheck} {values : Schema} {m : Modifiers}
    {entries : List (String × Value)} : Step (.record keys values m) (.object entries)

/-- Every walk starts with one of the steps. -/
theorem step (schema : Schema) (input : Value) : Step schema input := by
  -- The modifiers settle null and absence before the kind of the schema counts.
  by_cases hnull : input = .null
  · exact hnull ▸ .settled .null
  by_cases hundefined : input = .undefined
  · exact hundefined ▸ .settled .undefined
  have present : input.Present := ⟨hnull, hundefined⟩
  cases schema with
  | leaf check m => exact .settled (.leaf present)
  | union first second third m => exact .union present
  | array element m =>
    cases input with
    | array items => exact .list rfl
    | _ => exact .settled (.array present nofun)
  | tuple schemas m =>
    cases input with
    | array items =>
      by_cases shape : items.length = schemas.length
      · exact .list (if_pos shape)
      · exact .settled (.length shape)
    | _ => exact .settled (.tuple present nofun)
  | object properties m =>
    cases input with
    | object entries => exact .object
    | _ => exact .settled (.object present nofun)
  | record keys values m =>
    cases input with
    | object entries => exact .record
    | _ => exact .settled (.record present nofun)

/-- A settled node has a plain verdict. -/
theorem Settled.isPlain {schema : Schema} {input : Value} {v : Verdict}
    (h : Settled schema input v) : v.IsPlain := by
  cases h with
  | null | undefined => exact Verdict.isPlain_ofModifier ..
  | leaf present => exact Verdict.isPlain_ofCheck ..
  | _ => exact .inr ⟨_, rfl⟩

/-- The walk of a settled node. -/
theorem walk_settled {schema : Schema} {input : Value} {v : Verdict}
    (h : Settled schema input v) (path : String) (log : Log) :
    schema.walk input path log = (v, log ++ (v.ownMessages path).toArray) := by
  rw [← Verdict.recordAt_eq]
  -- A present input is matched by kind. The shapes that the walk would go on with are excluded.
  cases h with
  | null => unfold walk; rfl
  | undefined => unfold walk; rfl
  | leaf present => cases input <;> simp [walk, Value.Present] at present ⊢
  | array present shape => cases input <;> simp [walk, Value.Present] at present shape ⊢
  | tuple present shape => cases input <;> simp [walk, Value.Present] at present shape ⊢
  | length shape => simp [walk, shape]
  | object present shape => cases input <;> simp [walk, Value.Present] at present shape ⊢
  | record present shape => cases input <;> simp [walk, Value.Present] at present shape ⊢

/-- The walk of the third member of a union. -/
theorem walkThird_eq (third : Option Schema) (h : ∀ s ∈ third, s.Traced) (input : Value)
    (path : String) (log : Log) :
    walkThird third input path log =
      (third.toList.map (·.verdict input),
        log ++ (third.toList.flatMap (·.messages input path)).toArray) := by
  cases third with
  | none => simp [walkThird]
  | some member => simp [walkThird, h member rfl input]

/-- The walk of a union: all members, then the union itself. -/
theorem walk_union {first second : Schema} {third : Option Schema} {m : Modifiers} {input : Value}
    (ih : ∀ s ∈ unionMembers first second third, s.Traced) (present : input.Present)
    (path : String) (log : Log) :
    (union first second third m).walk input path log =
      (.ofMembers ((unionMembers first second third).map (·.verdict input)),
        log ++ (((unionMembers first second third).zipIdx.flatMap fun x =>
            x.1.messages input (memberPath path x.2)) ++
          (Verdict.ofMembers ((unionMembers first second third).map
            (·.verdict input))).ownMessages path).toArray) := by
  have hfirst : first.Traced := ih first (by simp [unionMembers])
  have hsecond : second.Traced := ih second (by simp [unionMembers])
  have hthird : ∀ s ∈ third, s.Traced := fun s hs => ih s (by simp_all [unionMembers])
  -- The third member, if there is one, is the one at position 2.
  have hmessages : (third.toList.zipIdx 2).flatMap (fun x =>
      x.1.messages input (memberPath path x.2)) =
      third.toList.flatMap (·.messages input (memberPath path 2)) := by
    cases third <;> simp
  -- The equation of the walk is one for each kind of input, and has these two for premises.
  cases input with
  | null => exact absurd rfl present.1
  | undefined => exact absurd rfl present.2
  | _ =>
    rw [walk]
    · simp [hfirst _, hsecond _, walkThird_eq third hthird, Verdict.recordAt_eq, unionMembers,
        hmessages]
    all_goals simp

/-- The walk of a list of the right shape. -/
theorem walk_list {schema : Schema} {input : Value} {parts : List (Schema × Value)}
    (ih : ∀ s ∈ schema.children, s.Traced) (h : schema.listParts? input = some parts)
    (path : String) (log : Log) :
    schema.walk input path log =
      (.ofItems (parts.map fun part => part.1.verdict part.2),
        log ++ (parts.zipIdx.flatMap fun x =>
          x.1.1.messages x.1.2 (itemPath path x.2)).toArray) := by
  unfold listParts? at h
  split at h
  · -- A list under one schema.
    rename_i element m items
    obtain rfl := Option.some.inj h
    have helement : element.Traced := ih element (by simp [children])
    simp [walk, walkItems_eq helement, Function.comp_def, List.zipIdx_map, List.flatMap_map]
  · -- A tuple, which is walked if the length is right.
    rename_i schemas m items
    split at h
    · rename_i hlength
      obtain rfl := Option.some.inj h
      simp [walk, hlength, walkTuple_eq schemas ih]
    · cases h
  · cases h

/-- The walk of an object. -/
theorem walk_object (properties : List (String × Schema)) (m : Modifiers)
    (entries : List (String × Value)) (ih : ∀ p ∈ properties, p.2.Traced) (path : String)
    (log : Log) :
    (object properties m).walk (.object entries) path log =
      (.ofEntries (properties.map fun p => (p.1, p.2.verdict ((Value.object entries).get p.1))),
        log ++ (properties.flatMap fun p =>
          p.2.messages ((Value.object entries).get p.1) (propertyPath path p.1)).toArray) := by
  simp [walk, walkProperties_eq properties ih]

/-- The keys that a record misses among the entries of an object. -/
def missingIn (keys : KeyCheck) (values : Schema) (entries : List (String × Value)) :
    List String := keys.missing (Entries.keys entries) values.modifiers.optional

/-- The walk of a record. -/
theorem walk_record (keys : KeyCheck) (values : Schema) (m : Modifiers)
    (entries : List (String × Value)) (ih : values.Traced) (path : String) (log : Log) :
    (record keys values m).walk (.object entries) path log =
      (.ofEntries ((entries.map fun e =>
            (e.1, .ofKeyed (keys.verdict e.1) (values.verdict e.2))) ++
          (missingIn keys values entries).map fun key => (key, .fail missingProperty)),
        log ++ ((entries.flatMap fun e =>
            (keys.verdict e.1).ownMessages (propertyPath path e.1) ++
              values.messages e.2 (propertyPath path e.1)) ++
          (missingIn keys values entries).map fun key =>
            (⟨propertyPath path key, missingProperty⟩ : Message)).toArray) := by
  simp [walk, walkEntries_eq ih, recordMissing_eq, missingIn]

/-- A walk gives the verdict of the schema and adds its messages, at any path and on any log. -/
theorem walk_eq (schema : Schema) (input : Value) (path : String) (log : Log) :
    schema.walk input path log =
      (schema.verdict input, log ++ (schema.messages input path).toArray) := by
  suffices schema.Traced from this input path log
  clear input path log
  induction schema with
  | node schema ih =>
    intro input path log
    -- Given the walks of the children, each step shows what the walk gives on all paths and logs.
    cases schema.step input with
    | settled h => exact walk_eq_of_walk (walk_settled h) path log
    | union present => exact walk_eq_of_walk (walk_union ih present) path log
    | list h => exact walk_eq_of_walk (walk_list ih h) path log
    | @object properties m entries =>
      have hproperties : ∀ p ∈ properties, p.2.Traced :=
        fun p hp => ih p.2 (List.mem_map_of_mem hp)
      exact walk_eq_of_walk (walk_object properties m entries hproperties) path log
    | @record keys values m entries =>
      have hvalues : values.Traced := ih values (List.mem_singleton_self values)
      exact walk_eq_of_walk (walk_record keys values m entries hvalues) path log

/-! ## Verdicts and messages by kind -/

section

variable {schema : Schema} {input : Value}

/-- A settled node has the verdict it is settled with. -/
theorem verdict_settled {v : Verdict} (h : Settled schema input v) : schema.verdict input = v :=
  (verdict_messages_of_walk (walk_settled h)).1

/-- A settled node leaves its own messages only. -/
theorem messages_settled {v : Verdict} (h : Settled schema input v) (path : String) :
    schema.messages input path = v.ownMessages path :=
  congrFun (verdict_messages_of_walk (walk_settled h)).2 path

/-- The verdict of a union is made from those of its members on the same input. -/
theorem verdict_union (first second : Schema) (third : Option Schema) (m : Modifiers)
    (present : input.Present) :
    (union first second third m).verdict input =
      .ofMembers ((unionMembers first second third).map (·.verdict input)) :=
  (verdict_messages_of_walk (walk_union (fun s _ => walk_eq s) present)).1

/-- The verdict of a union is plain. -/
theorem isPlain_verdict_union (first second : Schema) (third : Option Schema) (m : Modifiers)
    (present : input.Present) : ((union first second third m).verdict input).IsPlain := by
  rw [verdict_union first second third m present]
  exact Verdict.isPlain_ofMembers _

/-- A union leaves the messages of all members, then its own. -/
theorem messages_union (first second : Schema) (third : Option Schema) (m : Modifiers)
    (present : input.Present) (path : String) :
    (union first second third m).messages input path =
      ((unionMembers first second third).zipIdx.flatMap fun x =>
        x.1.messages input (memberPath path x.2)) ++
      ((union first second third m).verdict input).ownMessages path := by
  rw [verdict_union first second third m present]
  exact congrFun (verdict_messages_of_walk (walk_union (fun s _ => walk_eq s) present)).2 path

/-- The verdict of a list is made from those of its parts. -/
theorem verdict_list {parts : List (Schema × Value)} (h : schema.listParts? input = some parts) :
    schema.verdict input = .ofItems (parts.map fun part => part.1.verdict part.2) :=
  (verdict_messages_of_walk (walk_list (fun s _ => walk_eq s) h)).1

/-- A list leaves the messages of its parts, each under its position. -/
theorem messages_list {parts : List (Schema × Value)} (h : schema.listParts? input = some parts)
    (path : String) :
    schema.messages input path =
      parts.zipIdx.flatMap fun x => x.1.1.messages x.1.2 (itemPath path x.2) :=
  congrFun (verdict_messages_of_walk (walk_list (fun s _ => walk_eq s) h)).2 path

/-- The verdict of an object is made from those of its declared properties. -/
theorem verdict_object (properties : List (String × Schema)) (m : Modifiers)
    (entries : List (String × Value)) :
    (object properties m).verdict (.object entries) =
      .ofEntries (properties.map fun p =>
        (p.1, p.2.verdict ((Value.object entries).get p.1))) :=
  (verdict_messages_of_walk (walk_object properties m entries fun p _ => walk_eq p.2)).1

/-- An object leaves the messages of its declared properties, each under its name. -/
theorem messages_object (properties : List (String × Schema)) (m : Modifiers)
    (entries : List (String × Value)) (path : String) :
    (object properties m).messages (.object entries) path =
      properties.flatMap fun p =>
        p.2.messages ((Value.object entries).get p.1) (propertyPath path p.1) :=
  have hwalk := walk_object properties m entries fun p _ => walk_eq p.2
  congrFun (verdict_messages_of_walk hwalk).2 path

/-- The verdict of a record is made from those of its entries and one for each missing key. -/
theorem verdict_record (keys : KeyCheck) (values : Schema) (m : Modifiers)
    (entries : List (String × Value)) :
    (record keys values m).verdict (.object entries) =
      .ofEntries ((entries.map fun e =>
          (e.1, .ofKeyed (keys.verdict e.1) (values.verdict e.2))) ++
        (missingIn keys values entries).map fun key => (key, .fail missingProperty)) :=
  (verdict_messages_of_walk (walk_record keys values m entries (walk_eq values))).1

/-- A record leaves for each entry the messages of the key and of the value, then one for each
missing key. -/
theorem messages_record (keys : KeyCheck) (values : Schema) (m : Modifiers)
    (entries : List (String × Value)) (path : String) :
    (record keys values m).messages (.object entries) path =
      (entries.flatMap fun e =>
        (keys.verdict e.1).ownMessages (propertyPath path e.1) ++
          values.messages e.2 (propertyPath path e.1)) ++
      (missingIn keys values entries).map fun key =>
        (⟨propertyPath path key, missingProperty⟩ : Message) :=
  congrFun (verdict_messages_of_walk (walk_record keys values m entries (walk_eq values))).2 path

end

/-- The parts of a list are children of the schema and items of the list. -/
theorem mem_of_listParts {schema : Schema} {input : Value} {parts : List (Schema × Value)}
    (h : schema.listParts? input = some parts) {part : Schema × Value} (hp : part ∈ parts) :
    part.1 ∈ schema.children ∧ part.2 ∈ input.children := by
  unfold listParts? at h
  split at h
  · obtain rfl := Option.some.inj h
    obtain ⟨item, hitem, rfl⟩ := List.mem_map.1 hp
    exact ⟨List.mem_singleton_self _, hitem⟩
  · split at h
    · obtain rfl := Option.some.inj h
      exact List.of_mem_zip hp
    · cases h
  · cases h

/-- Induction along a walk: a property of all verdicts and messages is shown for each step, given
that it holds of the schemas and values the step goes on to. -/
theorem walk_induct {motive : Schema → Value → Prop}
    (settled : ∀ {schema input v}, Settled schema input v → motive schema input)
    (union : ∀ {first second third m input}, input.Present →
      (∀ s ∈ unionMembers first second third, motive s input) →
      motive (.union first second third m) input)
    (list : ∀ {schema input parts}, schema.listParts? input = some parts →
      (∀ part ∈ parts, motive part.1 part.2) → motive schema input)
    (object : ∀ {properties m entries},
      (∀ p ∈ properties, motive p.2 ((Value.object entries).get p.1)) →
      motive (.object properties m) (.object entries))
    (record : ∀ {keys values m entries}, (∀ e ∈ entries, motive values e.2) →
      motive (.record keys values m) (.object entries))
    (schema : Schema) (input : Value) : motive schema input := by
  induction schema generalizing input with
  | node schema ih =>
    cases schema.step input with
    | settled h => exact settled h
    | union present => exact union present fun s hs => ih s hs input
    | list h => exact list h fun part hp => ih part.1 (mem_of_listParts h hp).1 part.2
    | object => exact object fun p hp => ih p.2 (List.mem_map_of_mem hp) _
    | record => exact record fun e _ => ih _ (List.mem_singleton_self _) e.2

end Schema

end Conform

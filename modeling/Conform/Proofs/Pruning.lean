import Conform.Proofs.Acceptance

/-!
# Results are pruned values

Without parsers, validation only takes keys away. `Value.PrunedFrom` says that a value is what is
left of another after some keys have been deleted in it, and `prunedFrom_of_valid` that the result
of a walk is such a rest of its input: all scalars are as they were, all lists as long, and no
object has a key that it did not have.

The induction is along the accepted value. At an object and at a record it asks where an entry of
the result comes from, which is `mem_definedEntries_map`: from a property or an entry of the input,
under the same name and with a value that is not absent.
-/

namespace Conform

namespace Value

/-- The value is the other with keys deleted: the same scalar, a list as long whose items are those
of the other with keys deleted, or an object with some of the other's keys, each with its value
after keys have been deleted there. -/
inductive PrunedFrom : Value → Value → Prop
  | undefined : PrunedFrom .undefined .undefined
  | null : PrunedFrom .null .null
  | bool (b : Bool) : PrunedFrom (.bool b) (.bool b)
  | number (d : Double) : PrunedFrom (.number d) (.number d)
  | string (s : String) : PrunedFrom (.string s) (.string s)
  | array {items others : List Value} (length : items.length = others.length)
    (item : ∀ (i : Nat) (hi : i < items.length) (ho : i < others.length),
      PrunedFrom items[i] others[i]) :
    PrunedFrom (.array items) (.array others)
  | object {entries others : List (String × Value)}
    (keys : ∀ key ∈ Entries.keys entries, key ∈ Entries.keys others)
    (entry : ∀ key value other, Entries.get? key entries = some value →
      Entries.get? key others = some other → PrunedFrom value other) :
    PrunedFrom (.object entries) (.object others)

/-- Nothing need be deleted. -/
theorem PrunedFrom.refl (value : Value) : value.PrunedFrom value := by
  induction value with
  | node value ih =>
    cases value with
    | undefined => exact .undefined
    | null => exact .null
    | bool b => exact .bool b
    | number d => exact .number d
    | string s => exact .string s
    | array items => exact .array rfl fun i hi _ => ih _ (List.getElem_mem hi)
    | object entries =>
      refine .object (fun _ h => h) fun key value other hvalue hother => ?_
      obtain rfl : value = other := Option.some.inj (hvalue.symm.trans hother)
      exact ih value (List.mem_map_of_mem (f := Prod.snd) (Entries.mem_of_get? hvalue))

/-- Lists made item by item from the same parts are pruned if the items are. -/
theorem prunedFrom_map {α : Type} {l : List α} {f g : α → Value}
    (h : ∀ a ∈ l, (f a).PrunedFrom (g a)) :
    (Value.array (l.map f)).PrunedFrom (.array (l.map g)) := by
  refine .array (by simp) fun i hi _ => ?_
  rw [List.length_map] at hi
  rw [List.getElem_map, List.getElem_map]
  exact h l[i] (List.getElem_mem hi)

/-- An object is pruned if each of its entries is what another has under the name, after keys have
been deleted there. -/
theorem prunedFrom_of_entries {entries others : List (String × Value)}
    (h : ∀ key value, (key, value) ∈ entries →
      ∃ other, Entries.get? key others = some other ∧ value.PrunedFrom other) :
    (Value.object entries).PrunedFrom (.object others) := by
  refine .object (fun key hkey => ?_) fun key value other hvalue hother => ?_
  · obtain ⟨⟨k, value⟩, he, rfl⟩ := List.mem_map.1 hkey
    obtain ⟨other, hother, -⟩ := h k value he
    rw [← Entries.get?_isSome, hother]
    rfl
  · obtain ⟨found, hfound, hpruned⟩ := h key value (Entries.mem_of_get? hvalue)
    obtain rfl : found = other := Option.some.inj (hfound.symm.trans hother)
    exact hpruned

end Value

/-- A check that is no parser answers with the value itself. -/
theorem LeafCheck.Answers.eq_input {check : LeafCheck} {m : Modifiers} {input value : Value}
    (h : check.Answers input value) (hcheck : (Schema.leaf check m).parser? = none) :
    value = input := by
  cases h with
  | primitive | options => rfl
  | parser => cases hcheck

namespace Schema

/-- Without parsers, the result of an accepted value is the value with keys deleted. -/
theorem prunedFrom_result (schema : Schema) (input : Value) (hparsers : schema.ParserFree)
    (hinput : input.Valid) (h : schema.Accepts input) :
    (schema.result input).PrunedFrom input := by
  revert hparsers hinput
  refine accepts_induct (motive := fun schema input r =>
    schema.ParserFree → input.Valid → r.PrunedFrom input) ?null ?undefined ?leaf ?union ?list
    ?object ?record schema input h
  case null => exact fun _ _ _ => .null
  case undefined => exact fun _ _ _ => .undefined
  case leaf =>
    intro check m input value present hanswers hparsers _
    rw [hanswers.eq_input hparsers.here]
    exact .refl input
  case union =>
    intro first second third m input member present hmember ih hparsers hinput
    exact ih (hparsers.child (mem_of_firstAccepting hmember).1) hinput
  case list =>
    intro schema input parts hparts _ ih hparsers hinput
    obtain rfl := input_of_listParts hparts
    refine Value.prunedFrom_map fun part hp => ?_
    obtain ⟨hchild, hitem⟩ := mem_of_listParts hparts hp
    exact ih part hp (hparsers.child hchild) (Value.valid_array.1 hinput _ hitem)
  case object =>
    intro properties m entries _ ih hparsers hinput
    refine Value.prunedFrom_of_entries fun key value hentry => ?_
    obtain ⟨p, hp, rfl, rfl, hdefined⟩ := mem_definedEntries_map hentry
    -- A result that is not absent was made of something, which the object has under the name.
    cases hget : Entries.get? p.1 entries with
    | none =>
      have hundefined : (Value.object entries).get p.1 = .undefined := by rw [Value.get, hget]; rfl
      rw [hundefined, result_undefined] at hdefined
      exact absurd rfl hdefined
    | some other =>
      have hother : (Value.object entries).get p.1 = other := by rw [Value.get, hget]; rfl
      have hpruned := ih p hp (hparsers.child (mem_children_object hp m)) (hinput.get p.1)
      rw [hother] at hpruned ⊢
      exact ⟨other, rfl, hpruned⟩
  case record =>
    intro keys values m entries _ _ _ ih hparsers hinput
    obtain ⟨hdistinct, hvalues⟩ := Value.valid_object.1 hinput
    refine Value.prunedFrom_of_entries fun key value hentry => ?_
    obtain ⟨e, he, rfl, rfl, -⟩ := mem_definedEntries_map hentry
    -- Names are distinct, so what the input has under the name is the entry's own value.
    refine ⟨e.2, Entries.get?_of_mem hdistinct he, ?_⟩
    exact ih e he (hparsers.child (mem_children_record keys values m)) (hvalues e he)

/-- Without parsers, the result of a valid value is valid. -/
theorem valid_result (schema : Schema) (input : Value) (hparsers : schema.ParserFree)
    (hnames : schema.NamesDistinct) (hinput : input.Valid) (h : schema.Accepts input) :
    (schema.result input).Valid :=
  result_of_parts Value.ofParts_valid schema input hparsers.everyParser hnames hinput h

/-- Without parsers, the result of a walk that passes is its input with keys deleted. -/
theorem prunedFrom_of_valid (schema : Schema) (input : Value) (path : String) (log : Log)
    (r : Value) (hparsers : schema.ParserFree) (hinput : input.Valid)
    (h : (schema.walk input path log).1.outcome = .valid r) : r.PrunedFrom input := by
  rw [walk_eq] at h
  obtain ⟨haccepts, hresult⟩ := verdict_valid.1 h
  rw [← hresult]
  exact prunedFrom_result schema input hparsers hinput haccepts

/-- Records of lists of objects, where a value may also be a number. -/
def listedKeys : Schema :=
  recordOf (.primitive .string)
    (union2 (primitive .number) (listOf (objectOf [("k", primitive .any)])))

/-- A key that no object declares is deleted in the list below. -/
theorem prunedFrom_of_listedKeys :
    listedKeys.ParserFree ∧
      (Value.object [("x", .array [.object [("k", .bool true), ("z", .null)]])]).Valid ∧
      (listedKeys.walk (.object [("x", .array [.object [("k", .bool true), ("z", .null)]])]) "root"
        #[]).1.outcome = .valid (.object [("x", .array [.object [("k", .bool true)]])]) ∧
      (Value.object [("x", .array [.object [("k", .bool true)]])]).PrunedFrom
        (.object [("x", .array [.object [("k", .bool true), ("z", .null)]])]) := by
  have hparsers : listedKeys.ParserFree := by decide
  have hinput :
      (Value.object [("x", .array [.object [("k", .bool true), ("z", .null)]])]).Valid := by
    simp [Value.Valid, Value.ValidItems, Value.ValidEntries, Entries.Distinct]
  have hvalid : (listedKeys.walk (.object [("x", .array [.object [("k", .bool true),
      ("z", .null)]])]) "root" #[]).1.outcome =
        .valid (.object [("x", .array [.object [("k", .bool true)]])]) := rfl
  exact ⟨hparsers, hinput, hvalid,
    prunedFrom_of_valid listedKeys _ "root" #[] _ hparsers hinput hvalid⟩

end Schema

end Conform

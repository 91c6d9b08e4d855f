import Conform.Proofs.Acceptance

/-!
# What an object does not look at

An object asks its input for the properties that it declares and for nothing else. So two inputs
that have the same under each declared name cannot be told apart by a walk (`walk_object_congr`),
whatever else they hold, in whatever order, and whether a missing property is left out or there as
absent.

The names that come out are those that were declared, in the order of the declaration: all of them
in the tree, also where some have failed, and in a result those whose own result is not absent
(`keys_result_object`). Both are read off the verdicts of the properties, which are looked up one by
one.
-/

namespace Conform

namespace Schema

variable {properties : List (String × Schema)} {m : Modifiers}
  {entries others : List (String × Value)}

/-- The entries have the same under each name that the properties declare. -/
def SameDeclared (properties : List (String × Schema)) (entries others : List (String × Value)) :
    Prop :=
  ∀ name ∈ Entries.keys properties, (Value.object entries).get name = (Value.object others).get name

/-- Entries with the same under each declared name have the same verdict. -/
theorem verdict_object_congr (h : SameDeclared properties entries others) :
    (object properties m).verdict (.object entries) =
      (object properties m).verdict (.object others) := by
  rw [verdict_object, verdict_object]
  refine congrArg Verdict.ofEntries (List.map_congr_left fun p hp => ?_)
  rw [h p.1 (List.mem_map_of_mem hp)]

/-- Entries with the same under each declared name leave the same messages. -/
theorem messages_object_congr (h : SameDeclared properties entries others) (path : String) :
    (object properties m).messages (.object entries) path =
      (object properties m).messages (.object others) path := by
  rw [messages_object, messages_object]
  refine List.flatMap_congr fun p hp => ?_
  rw [h p.1 (List.mem_map_of_mem hp)]

/-- What a property comes to by itself, absent if it fails. -/
def ownResult (input : Value) (p : String × Schema) : Value :=
  (p.2.verdict (input.get p.1)).outcome.valueOrAbsent

/-- The result of an object has the names of the properties whose own results are not absent. -/
theorem keys_result_object {r : Value}
    (h : ((object properties m).verdict (.object entries)).outcome = .valid r) :
    ∃ kept, r = .object kept ∧
      Entries.keys kept =
        Entries.keys (properties.filter fun p => !(ownResult (.object entries) p).isUndefined) := by
  rw [verdict_object, Verdict.outcome_ofEntries, List.map_map] at h
  split at h
  · obtain rfl := Outcome.valid.inj h
    exact ⟨_, rfl, keys_definedEntries_map properties Prod.fst (ownResult (.object entries))⟩
  · cases h

/-- Objects with the same under each declared name are walked alike, with the same outcome, tree and
log. The tree has the declared names in order, and a result has those whose own result, at any path
and on any log, is not absent. -/
theorem walk_object_congr (properties : List (String × Schema)) (m : Modifiers)
    (entries others : List (String × Value)) (h : SameDeclared properties entries others)
    (path : String) (log : Log) :
    (object properties m).walk (.object entries) path log =
        (object properties m).walk (.object others) path log ∧
      (∃ tree : List (String × Validation),
        ((object properties m).walk (.object entries) path log).1.validation = .map tree ∧
          Entries.keys tree = Entries.keys properties) ∧
      ∀ r, ((object properties m).walk (.object entries) path log).1.outcome = .valid r →
        ∃ kept, r = .object kept ∧ ∀ (ownPath : String) (ownLog : Log),
          Entries.keys kept = Entries.keys (properties.filter fun p =>
            !(p.2.walk ((Value.object entries).get p.1) ownPath
              ownLog).1.outcome.valueOrAbsent.isUndefined) := by
  simp only [walk_eq]
  refine ⟨?_, ?_, fun r hr => ?_⟩
  · rw [verdict_object_congr h, messages_object_congr h]
  · rw [verdict_object]
    refine ⟨_, rfl, ?_⟩
    simp [Entries.keys, Function.comp_def]
  · obtain ⟨kept, hkept, hkeys⟩ := keys_result_object hr
    exact ⟨kept, hkept, fun _ _ => hkeys⟩

/-- A number, and a text that may be missing. -/
def numberedNote : List (String × Schema) :=
  [("id", primitive .number), ("note", (primitive .string).optional)]

/-- Other entries before and behind, in another order, and an absent text that is left out or not,
make no difference. The result has the number alone. -/
theorem walk_object_congr_numberedNote :
    SameDeclared numberedNote [("x", .null), ("id", .number .zero)]
        [("note", .undefined), ("id", .number .zero), ("y", .bool true)] ∧
      (object numberedNote .none).walk (.object [("x", .null), ("id", .number .zero)]) "root" #[] =
        (object numberedNote .none).walk
          (.object [("note", .undefined), ("id", .number .zero), ("y", .bool true)]) "root" #[] ∧
      ∃ kept, ((object numberedNote .none).walk (.object [("x", .null), ("id", .number .zero)])
          "root" #[]).1.outcome = .valid (.object kept) ∧ Entries.keys kept = ["id"] := by
  have hsame : SameDeclared numberedNote [("x", .null), ("id", .number .zero)]
      [("note", .undefined), ("id", .number .zero), ("y", .bool true)] :=
    List.forall_mem_cons.2 ⟨rfl, List.forall_mem_cons.2 ⟨rfl, nofun⟩⟩
  obtain ⟨hwalk, -, hresult⟩ := walk_object_congr numberedNote .none _ _ hsame "root" #[]
  have hvalid : ((object numberedNote .none).walk (.object [("x", .null), ("id", .number .zero)])
      "root" #[]).1.outcome = .valid (.object [("id", .number .zero)]) := rfl
  obtain ⟨kept, hkept, hkeys⟩ := hresult _ hvalid
  obtain rfl := Value.object.inj hkept
  exact ⟨hsame, hwalk, _, hvalid, hkeys "" #[]⟩

end Schema

end Conform

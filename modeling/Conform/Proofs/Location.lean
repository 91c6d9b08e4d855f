import Conform.Proofs.Verdict
import Mathlib.Data.List.Basic
import Mathlib.Data.List.Flatten

/-!
# The leaves of the tree in the log

`Validation.located` lists the leaves of a tree with their places, each node before its children and
these from left to right. `located_sublist` says that the leaves are in the log, in this order, and
`messages_eq_located` that there is nothing else in it if the schema has no union and accepts every
key of a record: the members of a union and the keys of records are the only ones whose errors have
no place in the tree.

Both inductions follow the walk. The case of an entry of a record is `located_entry_sublist`, where
the error of a rejected key comes before those of the value and may stand in the tree in their
place.
-/

namespace Conform

namespace Validation

mutual

/-- The leaves of a tree, each with the path of its place: an item of a list is at its position in
brackets, and an entry of a map at its key behind a dot. -/
def located : Validation → String → List Message
  | .clean, _ => []
  | .leaf error, path => [⟨path, error⟩]
  | .list items, path => locatedItems items 0 path
  | .map entries, path => locatedEntries entries path

/-- The leaves of items, the first of which is at the position. -/
def locatedItems : List Validation → Nat → String → List Message
  | [], _, _ => []
  | item :: rest, position, path =>
    located item (path ++ "[" ++ toString position ++ "]") ++ locatedItems rest (position + 1) path

/-- The leaves of entries. -/
def locatedEntries : List (String × Validation) → String → List Message
  | [], _ => []
  | (key, entry) :: rest, path => located entry (path ++ "." ++ key) ++ locatedEntries rest path

end

mutual

/-- The located leaves are the leaves. -/
theorem map_error_located : ∀ (t : Validation) (path : String),
    (t.located path).map Message.error = t.leaves
  | .clean, _ => rfl
  | .leaf _, _ => rfl
  | .list items, path => map_error_locatedItems items 0 path
  | .map entries, path => map_error_locatedEntries entries path

/-- The located leaves of items are their leaves. -/
theorem map_error_locatedItems : ∀ (items : List Validation) (position : Nat) (path : String),
    (locatedItems items position path).map Message.error = itemsLeaves items
  | [], _, _ => rfl
  | item :: rest, position, path => by
    rw [locatedItems, List.map_append, map_error_located, map_error_locatedItems, itemsLeaves]

/-- The located leaves of entries are their leaves. -/
theorem map_error_locatedEntries : ∀ (entries : List (String × Validation)) (path : String),
    (locatedEntries entries path).map Message.error = entriesLeaves entries
  | [], _ => rfl
  | (key, entry) :: rest, path => by
    rw [locatedEntries, List.map_append, map_error_located, map_error_locatedEntries,
      entriesLeaves]

end

/-- The leaves of items are those of each under its position. -/
theorem locatedItems_eq (items : List Validation) (position : Nat) (path : String) :
    locatedItems items position path =
      (items.zipIdx position).flatMap fun x =>
        x.1.located (path ++ "[" ++ toString x.2 ++ "]") := by
  induction items generalizing position with
  | nil => simp [locatedItems]
  | cons item rest ih => simp [locatedItems, ih]

/-- The leaves of entries are those of each under its key. -/
theorem locatedEntries_eq (entries : List (String × Validation)) (path : String) :
    locatedEntries entries path =
      entries.flatMap fun e => e.2.located (path ++ "." ++ e.1) := by
  induction entries with
  | nil => simp [locatedEntries]
  | cons e rest ih => simp [locatedEntries, ih]

end Validation

namespace Verdict

/-- The leaves of a list are those of each item at the path under which a walk goes to it. -/
theorem located_ofItems {α : Type} (l : List α) (v : α → Verdict) (path : String) :
    (ofItems (l.map v)).validation.located path =
      l.zipIdx.flatMap fun x => (v x.1).validation.located (itemPath path x.2) := by
  simp [ofItems, Validation.located, Validation.locatedItems_eq, itemPath, List.zipIdx_map,
    List.flatMap_map]

/-- The leaves of an object are those of each entry at the path under which a walk goes to it. -/
theorem located_ofEntries (entries : List (String × Verdict)) (path : String) :
    (ofEntries entries).validation.located path =
      entries.flatMap fun e => e.2.validation.located (propertyPath path e.1) := by
  simp [ofEntries, Validation.located, Validation.locatedEntries_eq, propertyPath,
    List.flatMap_map]

/-- The leaves of a plain verdict are its own messages. -/
theorem located_of_isPlain {v : Verdict} (h : v.IsPlain) (path : String) :
    v.validation.located path = v.ownMessages path := by
  rcases h with ⟨value, rfl⟩ | ⟨error, rfl⟩ <;> rfl

end Verdict

/-- Whether the check accepts every string. -/
def KeyCheck.isOpen : KeyCheck → Bool
  | .primitive .string | .primitive .unknown | .primitive .any => true
  | _ => false

namespace Schema

/-- Every record in the schema takes all keys. -/
def OpenKeyed (schema : Schema) : Prop :=
  schema.Every fun node => ∀ keys values m, node = .record keys values m → keys.isOpen = true

instance : DecidablePred fun node : Schema =>
    ∀ keys values m, node = .record keys values m → keys.isOpen = true
  | .record keys _ _ => decidable_of_iff (keys.isOpen = true)
    ⟨fun h _ _ _ heq => (record.inj heq).1 ▸ h, fun h => h _ _ _ rfl⟩
  | .leaf _ _ | .union _ _ _ _ | .array _ _ | .tuple _ _ | .object _ _ => isTrue nofun

instance (schema : Schema) : Decidable schema.OpenKeyed :=
  inferInstanceAs (Decidable (schema.Every _))

/-- The leaves of an entry of a record are among the messages of its key and its value. -/
theorem located_entry_sublist (keys : KeyCheck) (values : Schema) (key : String) (value : Value)
    (path : String)
    (ih : ((values.verdict value).validation.located path).Sublist
      (values.messages value path)) :
    ((Verdict.ofKeyed (keys.verdict key) (values.verdict value)).validation.located path).Sublist
      ((keys.verdict key).ownMessages path ++ values.messages value path) := by
  rcases keys.isPlain_verdict key with ⟨r, hkey⟩ | ⟨error, hkey⟩
  · rw [hkey]
    exact ih
  · rw [hkey]
    -- In the tree is the error of the key or what is in the tree of the value, but never both.
    by_cases hv : (values.verdict value).validation = .clean
    · rw [Verdict.ofKeyed_fail_of_clean hv, Verdict.located_of_isPlain (.inr ⟨error, rfl⟩)]
      exact List.sublist_append_left ..
    · rw [Verdict.ofKeyed_fail_of_ne_clean hv]
      exact ih.trans (List.sublist_append_right ..)

/-- The leaves of the tree are among the messages of the walk, in the same order. -/
theorem located_sublist (schema : Schema) (input : Value) (path : String) :
    ((schema.verdict input).validation.located path).Sublist (schema.messages input path) := by
  induction schema, input using walk_induct generalizing path with
  | settled h =>
    rw [verdict_settled h, messages_settled h, Verdict.located_of_isPlain h.isPlain]
  | @union first second third m input present ih =>
    have hplain := isPlain_verdict_union first second third m present
    rw [messages_union first second third m present, Verdict.located_of_isPlain hplain]
    exact List.sublist_append_right ..
  | list h ih =>
    rw [verdict_list h, messages_list h, Verdict.located_ofItems]
    exact List.Sublist.flatMap_right _ fun x hx => ih x.1 (List.fst_mem_of_mem_zipIdx hx) _
  | object ih =>
    rw [verdict_object, messages_object, Verdict.located_ofEntries, List.flatMap_map]
    exact List.Sublist.flatMap_right _ fun p hp => ih p hp _
  | record ih =>
    rw [verdict_record, messages_record, Verdict.located_ofEntries, List.flatMap_append,
      List.flatMap_map, List.flatMap_map]
    refine List.Sublist.append ?_ ?_
    · exact List.Sublist.flatMap_right _ fun e he => located_entry_sublist _ _ _ _ _ (ih e he _)
    · -- A missing key has its error in the tree and in the log.
      rw [List.map_eq_flatMap]
      exact List.Sublist.refl _

/-- An open check passes every key. -/
theorem verdict_of_isOpen {keys : KeyCheck} (h : keys.isOpen = true) (key : String) :
    keys.verdict key = .pass (.string key) := by
  cases keys with
  | primitive p => cases p <;> first | rfl | cases h
  | options literals => cases h

/-- A record with an open check misses no key. -/
theorem missingIn_of_isOpen {keys : KeyCheck} (h : keys.isOpen = true) (values : Schema)
    (entries : List (String × Value)) : missingIn keys values entries = [] := by
  cases keys with
  | primitive p => rfl
  | options literals => cases h

/-- Without unions and with open keys, the leaves of the tree are all the messages of the walk. -/
theorem messages_eq_located (schema : Schema) (input : Value) (hunion : schema.UnionFree)
    (hkeys : schema.OpenKeyed) (path : String) :
    schema.messages input path = (schema.verdict input).validation.located path := by
  induction schema, input using walk_induct generalizing path with
  | settled h =>
    rw [verdict_settled h, messages_settled h, Verdict.located_of_isPlain h.isPlain]
  | union present ih => cases hunion.here
  | list h ih =>
    rw [verdict_list h, messages_list h, Verdict.located_ofItems]
    refine List.flatMap_congr fun x hx => ?_
    have hpart := List.fst_mem_of_mem_zipIdx hx
    have hchild := (mem_of_listParts h hpart).1
    exact ih x.1 hpart (hunion.child hchild) (hkeys.child hchild) _
  | object ih =>
    rw [verdict_object, messages_object, Verdict.located_ofEntries, List.flatMap_map]
    refine List.flatMap_congr fun p hp => ?_
    have hchild := List.mem_map_of_mem (f := Prod.snd) hp
    exact ih p hp (hunion.child hchild) (hkeys.child hchild) _
  | @record keys values m entries ih =>
    -- Under an open check no key is rejected and none is missing, so only the values have errors.
    have hopen : keys.isOpen = true := hkeys.here keys values m rfl
    have hchild : values ∈ (record keys values m).children := List.mem_singleton_self values
    rw [verdict_record, messages_record, missingIn_of_isOpen hopen, List.map_nil, List.map_nil,
      List.append_nil, List.append_nil, Verdict.located_ofEntries, List.flatMap_map]
    refine List.flatMap_congr fun e he => ?_
    rw [verdict_of_isOpen hopen, Verdict.ownMessages_pass, List.nil_append,
      Verdict.ofKeyed_of_ne_invalid (by simp [Verdict.pass])]
    exact ih e he (hunion.child hchild) (hkeys.child hchild) _

/-- The leaves of the tree, with their places, are in the same order among the messages that the
walk puts behind those in the log; and without unions and with open keys they are all of them. -/
theorem log_eq_append_located (schema : Schema) (input : Value) (path : String) (log : Log) :
    ∃ added : List Message,
      (schema.walk input path log).2.toList = log.toList ++ added ∧
        ((schema.walk input path log).1.validation.located path).Sublist added ∧
        (schema.UnionFree → schema.OpenKeyed →
          added = (schema.walk input path log).1.validation.located path) := by
  rw [walk_eq]
  refine ⟨schema.messages input path, by simp, located_sublist schema input path, ?_⟩
  exact fun hunion hkeys => messages_eq_located schema input hunion hkeys path

/-- Lists of numbers and numbers by name. -/
def measures : Schema :=
  objectOf [("all", listOf (primitive .number)),
    ("best", recordOf (.primitive .string) (primitive .number))]

/-- Among the numbers of both kinds there is one thing that is none. -/
def wrongMeasures : Value :=
  .object [("all", .array [.number .zero, .string "x"]), ("best", .object [("k", .null)])]

/-- Behind the message that is in the log already there is one for each of the two leaves, with the
path of its place. -/
theorem log_eq_append_located_wrongMeasures :
    measures.UnionFree ∧ measures.OpenKeyed ∧
      (measures.walk wrongMeasures "root" #[⟨"", "before"⟩]).1.validation.located "root" =
        [⟨"root.all[1]", "\"x\" is not a number."⟩, ⟨"root.best.k", "null is not allowed."⟩] ∧
      (measures.walk wrongMeasures "root" #[⟨"", "before"⟩]).2.toList =
        [⟨"", "before"⟩, ⟨"root.all[1]", "\"x\" is not a number."⟩,
          ⟨"root.best.k", "null is not allowed."⟩] := by
  have hunion : measures.UnionFree := by decide
  have hkeys : measures.OpenKeyed := by decide
  have hlocated : (measures.walk wrongMeasures "root" #[⟨"", "before"⟩]).1.validation.located
      "root" =
        [⟨"root.all[1]", "\"x\" is not a number."⟩, ⟨"root.best.k", "null is not allowed."⟩] := by
    decide +kernel
  obtain ⟨added, hlog, -, hall⟩ :=
    log_eq_append_located measures wrongMeasures "root" #[⟨"", "before"⟩]
  rw [hall hunion hkeys, hlocated] at hlog
  exact ⟨hunion, hkeys, hlocated, hlog⟩

end Schema

end Conform

import Conform.Proofs.Acceptance
import Conform.Proofs.Evidence
import Mathlib.Data.List.Nodup

/-!
# Records with a closed set of keys

A record whose keys are to be among a list of names asks for much the same as an object that
declares these names, all under the schema of the values. The record goes through the entries of the
input and then looks for the names that are missing, while the object goes through its names and
reads absence where the input has no entry. `accepts_closedRecord_iff` says that the record accepts
what the object accepts and nothing with other keys: where a name is missing both come down to
whether the values may be absent (`accepts_get_iff`).

The entries of both results are the same (`result_closedRecord_perm`), and each result has them in the
order of its loop. `walk_closedRecord` says both of walks.
-/

namespace Conform

/-- A key is accepted by a closed list of names if it is one of them. -/
theorem KeyCheck.accepts_names (names : List String) (key : String) :
    (KeyCheck.options (names.map .string)).Accepts key ↔ key ∈ names := by
  unfold Accepts toLeaf
  constructor
  · intro h
    cases h with
    | options hl hdenotes =>
      obtain ⟨name, hname, rfl⟩ := List.mem_map.1 hl
      cases hdenotes
      exact hname
  · intro hkey
    exact .options (List.mem_map_of_mem hkey) (.string key)

/-- What an object with distinct names has under the name of an entry is the value of the entry. -/
theorem Value.get_of_mem {entries : List (String × Value)} (h : Entries.Distinct entries)
    {e : String × Value} (he : e ∈ entries) : (Value.object entries).get e.1 = e.2 := by
  rw [get, Entries.get?_of_mem h he]
  rfl

/-- What an object has under a name that is not among its keys is absent. -/
theorem Value.get_of_notMem {entries : List (String × Value)} {key : String}
    (h : key ∉ Entries.keys entries) : (Value.object entries).get key = .undefined := by
  have hnone : Entries.get? key entries = none := by
    rw [← Option.not_isSome_iff_eq_none, Entries.get?_isSome]
    exact h
  rw [get, hnone]
  rfl

namespace Schema

/-- A record with its keys among the names, which all have to be there unless the values are
optional. -/
def closedRecord (names : List String) (values : Schema) (m : Modifiers) : Schema :=
  (recordOf (.options (names.map .string)) values).withModifiers m

/-- An object that declares the names, all under the same schema. -/
def uniformObject (names : List String) (values : Schema) (m : Modifiers) : Schema :=
  (objectOf (names.map fun name => (name, values))).withModifiers m

variable {names : List String} {values : Schema} {m : Modifiers} {entries : List (String × Value)}

/-- A record with a closed list of names accepts entries with these names and accepted values,
if none of the names is missing or the values are optional. -/
theorem accepts_closedRecord :
    (closedRecord names values m).Accepts (.object entries) ↔
      (∀ e ∈ entries, e.1 ∈ names) ∧ (∀ e ∈ entries, values.Accepts e.2) ∧
        (values.modifiers.optional = false → ∀ name ∈ names, name ∈ Entries.keys entries) := by
  unfold closedRecord recordOf withModifiers
  rw [accepts_record, missingIn_eq_nil]
  simp [KeyCheck.accepts_names, Literal.toText]

/-- An object with the same schema under all its names accepts what has accepted values under
them. -/
theorem accepts_uniformObject :
    (uniformObject names values m).Accepts (.object entries) ↔
      ∀ name ∈ names, values.Accepts ((Value.object entries).get name) := by
  unfold uniformObject objectOf withModifiers
  rw [accepts_object]
  constructor
  · intro h name hname
    exact h (name, values) (Entries.mem_ofList_const.2 ⟨hname, rfl⟩)
  · intro h p hp
    obtain ⟨hname, hvalues⟩ := Entries.mem_ofList_const.1 hp
    rw [hvalues]
    exact h p.1 hname

/-- What is under a name that may be missing is accepted if all values are, and the name is there or
the values are optional. -/
theorem accepts_get_iff (h : Entries.Distinct entries) (values : Schema) (names : List String) :
    (∀ name ∈ names, values.Accepts ((Value.object entries).get name)) ↔
      (∀ e ∈ entries, e.1 ∈ names → values.Accepts e.2) ∧
        (values.modifiers.optional = false → ∀ name ∈ names, name ∈ Entries.keys entries) := by
  constructor
  · intro haccepts
    constructor
    · intro e he hname
      rw [← Value.get_of_mem h he]
      exact haccepts e.1 hname
    · intro hrequired name hname
      by_contra hmissing
      have habsent := haccepts name hname
      rw [Value.get_of_notMem hmissing, accepts_undefined, hrequired] at habsent
      cases habsent
  · rintro ⟨hvalues, hcomplete⟩ name hname
    by_cases hkey : name ∈ Entries.keys entries
    · obtain ⟨e, he, rfl⟩ := List.mem_map.1 hkey
      rw [Value.get_of_mem h he]
      exact hvalues e he hname
    · -- A name is only missing where the values are optional, and then absence is accepted.
      rw [Value.get_of_notMem hkey, accepts_undefined]
      by_contra hrequired
      exact hkey (hcomplete (Bool.eq_false_iff.2 hrequired) name hname)

/-- A record with a closed list of names accepts what has no other keys and is accepted by the
object that declares the names. -/
theorem accepts_closedRecord_iff (names : List String) (values : Schema) (m : Modifiers)
    {input : Value} (hvalid : input.Valid) :
    (closedRecord names values m).Accepts input ↔
      (∀ key ∈ input.ownKeys, key ∈ names) ∧ (uniformObject names values m).Accepts input := by
  have hmodifiers : (closedRecord names values m).modifiers =
      (uniformObject names values m).modifiers := rfl
  cases input with
  | object entries =>
    obtain ⟨hdistinct, -⟩ := Value.valid_object.1 hvalid
    have hown : (∀ key ∈ (Value.object entries).ownKeys, key ∈ names) ↔
        ∀ e ∈ entries, e.1 ∈ names := List.forall_mem_map
    rw [accepts_closedRecord, accepts_uniformObject, accepts_get_iff hdistinct, hown]
    constructor
    · rintro ⟨hnames, hvalues, hcomplete⟩
      exact ⟨hnames, fun e he _ => hvalues e he, hcomplete⟩
    · rintro ⟨hnames, hvalues, hcomplete⟩
      exact ⟨hnames, fun e he => hvalues e he (hnames e he), hcomplete⟩
  | null =>
    rw [accepts_null, accepts_null, hmodifiers]
    exact ⟨fun h => ⟨nofun, h⟩, And.right⟩
  | undefined =>
    rw [accepts_undefined, accepts_undefined, hmodifiers]
    exact ⟨fun h => ⟨nofun, h⟩, And.right⟩
  | bool | number | string | array =>
    -- Neither accepts a present value that is no object.
    exact ⟨nofun, fun h => nomatch h.2⟩

/-! ## Results -/

/-- The entries that are kept have their names in the order in which they were made. -/
theorem keys_definedEntries_sublist {α : Type} (l : List α) (name : α → String) (f : α → Value) :
    (Entries.keys (definedEntries (l.map fun a => (name a, f a)))).Sublist (l.map name) := by
  rw [keys_definedEntries_map]
  exact List.filter_sublist.map name

/-- Of entries with these names only, a record and the object that declares the names make the same
entries. -/
theorem result_closedRecord_perm (h : Entries.Distinct entries)
    (hnames : ∀ e ∈ entries, e.1 ∈ names) (values : Schema) :
    (definedEntries (entries.map fun e => (e.1, values.result e.2))).Perm
      (definedEntries ((Entries.ofList (names.map fun name => (name, values))).map fun p =>
        (p.1, p.2.result ((Value.object entries).get p.1)))) := by
  have hrecord : Entries.Distinct (entries.map fun e => (e.1, values.result e.2)) :=
    Entries.distinct_map h _
  have hobject : Entries.Distinct
      ((Entries.ofList (names.map fun name => (name, values))).map fun p =>
        (p.1, p.2.result ((Value.object entries).get p.1))) :=
    Entries.distinct_map (Entries.distinct_ofList _) _
  apply (List.perm_ext_iff_of_nodup (List.Nodup.of_map Prod.fst (distinct_definedEntries hrecord))
    (List.Nodup.of_map Prod.fst (distinct_definedEntries hobject))).2
  rintro ⟨key, result⟩
  rw [mem_definedEntries, mem_definedEntries, and_congr_left_iff]
  intro hdefined
  constructor
  · intro hmem
    obtain ⟨e, he, heq⟩ := List.mem_map.1 hmem
    rw [← heq, ← Value.get_of_mem h he]
    -- Its name is declared, and under the name the object has the value of the entry.
    have hdeclared : (e.1, values) ∈ Entries.ofList (names.map fun name => (name, values)) :=
      Entries.mem_ofList_const.2 ⟨hnames e he, rfl⟩
    exact List.mem_map_of_mem hdeclared
  · intro hmem
    obtain ⟨p, hp, heq⟩ := List.mem_map.1 hmem
    obtain ⟨rfl, rfl⟩ := Prod.mk.inj heq
    obtain ⟨-, hvalues⟩ := Entries.mem_ofList_const.1 hp
    have hkey : p.1 ∈ Entries.keys entries := by
      by_contra hmissing
      -- Of a name that is missing an object makes nothing.
      rw [Value.get_of_notMem hmissing, result_undefined] at hdefined
      exact hdefined rfl
    obtain ⟨e, he, hfst⟩ := List.mem_map.1 hkey
    rw [hvalues, ← hfst, Value.get_of_mem h he]
    exact List.mem_map_of_mem he

/-! ## Walks -/

/-- A record with a closed list of names accepts a value exactly if the value has no other keys and
the object that declares the names accepts it. Where both accept, their results are the same
entries, in the order of the input for the record and in that of the declarations for the object.
Null and absence are left as they are by both. -/
theorem walk_closedRecord (names : List String) (values : Schema) (m : Modifiers) (input : Value)
    (hvalid : input.Valid) (path : String) (log : Log) :
    (((closedRecord names values m).walk input path log).1.outcome.isValid = true ↔
      (∀ key ∈ input.ownKeys, key ∈ names) ∧
        ((uniformObject names values m).walk input path log).1.outcome.isValid = true) ∧
    ∀ r s, ((closedRecord names values m).walk input path log).1.outcome = .valid r →
      ((uniformObject names values m).walk input path log).1.outcome = .valid s →
        ¬ input.Present ∧ r = input ∧ s = input ∨
          ∃ fromRecord fromObject, r = .object fromRecord ∧ s = .object fromObject ∧
            fromRecord.Perm fromObject ∧ (Entries.keys fromRecord).Sublist input.ownKeys ∧
            (Entries.keys fromObject).Sublist (uniformObject names values m).declaredNames := by
  constructor
  · rw [walk_isValid, walk_isValid]
    exact accepts_closedRecord_iff names values m hvalid
  · intro r s hr hs
    obtain ⟨hrecord, rfl⟩ := walk_valid.1 hr
    obtain ⟨-, rfl⟩ := walk_valid.1 hs
    by_cases present : input.Present
    · right
      cases hrecord with
      | null => exact absurd rfl present.1
      | undefined => exact absurd rfl present.2
      | @record _ _ _ entries hkeys =>
        have hnames : ∀ e ∈ entries, e.1 ∈ names := fun e he =>
          (KeyCheck.accepts_names names e.1).1 (hkeys e he)
        obtain ⟨hdistinct, -⟩ := Value.valid_object.1 hvalid
        have hperm := result_closedRecord_perm hdistinct hnames values
        exact ⟨_, _, result_record .., result_object .., hperm, keys_definedEntries_sublist ..,
          keys_definedEntries_sublist ..⟩
    · left
      rcases Value.not_present_iff.1 present with rfl | rfl
      · exact ⟨present, result_null _, result_null _⟩
      · exact ⟨present, result_undefined _, result_undefined _⟩

/-- Names, one of them twice. -/
def listedNames : List String := ["b", "d", "a", "c", "b"]

/-- Numbers or texts, or nothing. -/
def numberOrTextOrAbsent : Schema := (union2 (primitive .number) (primitive .string)).optional

/-- Texts under `a` and `b`, and nothing under `c`. -/
def someTexts : Value := .object [("a", .string "x"), ("c", .undefined), ("b", .string "y")]

/-- One name is listed twice and another is missing. Both results are without what is absent, one in
the order of the input and the other in that of the names. -/
theorem walk_closedRecord_someTexts :
    someTexts.Valid ∧
      (((closedRecord listedNames numberOrTextOrAbsent .none).walk someTexts "root"
          #[]).1.outcome.isValid = true ↔
        (∀ key ∈ someTexts.ownKeys, key ∈ listedNames) ∧
          ((uniformObject listedNames numberOrTextOrAbsent .none).walk someTexts "root"
            #[]).1.outcome.isValid = true) ∧
      ((closedRecord listedNames numberOrTextOrAbsent .none).walk someTexts "root" #[]).1.outcome =
        .valid (.object [("a", .string "x"), ("b", .string "y")]) ∧
      ((uniformObject listedNames numberOrTextOrAbsent .none).walk someTexts "root" #[]).1.outcome =
        .valid (.object [("b", .string "y"), ("a", .string "x")]) ∧
      [("a", Value.string "x"), ("b", .string "y")].Perm
        [("b", .string "y"), ("a", .string "x")] := by
  have hvalid : someTexts.Valid :=
    ⟨(by decide : ["a", "c", "b"].Nodup), trivial, trivial, trivial, trivial⟩
  obtain ⟨hiff, hresults⟩ :=
    walk_closedRecord listedNames numberOrTextOrAbsent .none someTexts hvalid "root" #[]
  refine ⟨hvalid, hiff, rfl, rfl, ?_⟩
  obtain ⟨habsent, -⟩ | ⟨_, _, hr, hs, hperm, -⟩ := hresults _ _ rfl rfl
  · exact absurd ⟨nofun, nofun⟩ habsent
  · obtain rfl := Value.object.inj hr
    obtain rfl := Value.object.inj hs
    exact hperm

end Schema

end Conform

import Conform.Proofs.Acceptance
import Conform.Proofs.Failure
import Conform.Proofs.Matching
import Conform.Proofs.Rounding
import Conform.Value.Json

/-!
# Values through JSON

A value has a JSON document exactly if all its numbers are finite, and otherwise the first that is
not is the fault. From the document comes back the value in normal form: absence is null, entries
that are absent are left out, and zero has no sign. `ofJson_toJson` says so, and that the normal
form has the same document again.

Numbers are what there is to prove about single values. A whole number below `2^53` is an integer
in JSON and is rounded on the way back, which changes nothing because it is a double
(`doubleOfNumber_numberOfMagnitude`); all others are kept as they are.
-/

namespace Conform

/-- The number, without a sign if it is zero. -/
def Double.unsignedZero : Double → Double
  | .finite negative x => if x.mantissa = 0 then .zero else .finite negative x
  | d => d

namespace Value

mutual

/-- The numbers in a value, in the order in which they stand there. -/
def numbers : Value → List Double
  | .undefined | .null | .bool _ | .string _ => []
  | .number d => [d]
  | .array items => itemsNumbers items
  | .object entries => entriesNumbers entries

/-- The numbers in the items of a list. -/
def itemsNumbers : List Value → List Double
  | [] => []
  | item :: rest => numbers item ++ itemsNumbers rest

/-- The numbers in the values of entries. -/
def entriesNumbers : List (String × Value) → List Double
  | [] => []
  | (_, value) :: rest => numbers value ++ entriesNumbers rest

end

mutual

/-- The normal form of a value: null for absence, no absent entries and no sign at zero. -/
def normal : Value → Value
  | .undefined => .null
  | .null => .null
  | .bool b => .bool b
  | .number d => .number d.unsignedZero
  | .string s => .string s
  | .array items => .array (normalItems items)
  | .object entries => .object (normalEntries entries)

/-- The normal forms of the items of a list. -/
def normalItems : List Value → List Value
  | [] => []
  | item :: rest => normal item :: normalItems rest

/-- The entries that are not absent, with the normal forms of their values. -/
def normalEntries : List (String × Value) → List (String × Value)
  | [] => []
  | (_, .undefined) :: rest => normalEntries rest
  | (key, value) :: rest => (key, normal value) :: normalEntries rest

end

/-! ## Lists and entries -/

/-- The numbers in a list are those of its items one after another. -/
theorem itemsNumbers_eq (items : List Value) : itemsNumbers items = items.flatMap numbers := by
  induction items with
  | nil => rfl
  | cons item rest ih => rw [itemsNumbers, ih, List.flatMap_cons]

/-- The numbers in entries are those of their values one after another. -/
theorem entriesNumbers_eq (entries : List (String × Value)) :
    entriesNumbers entries = entries.flatMap fun e => e.2.numbers := by
  induction entries with
  | nil => rfl
  | cons e rest ih => rw [entriesNumbers, ih, List.flatMap_cons]

/-- The normal form of a list is that of each item. -/
theorem normalItems_eq (items : List Value) : normalItems items = items.map normal := by
  induction items with
  | nil => rfl
  | cons item rest ih => rw [normalItems, ih, List.map_cons]

/-- The normal form of entries is that of each that is not absent. -/
theorem normalEntries_eq (entries : List (String × Value)) :
    normalEntries entries = (definedEntries entries).map fun e => (e.1, e.2.normal) := by
  induction entries with
  | nil => rfl
  | cons e rest ih =>
    obtain ⟨key, value⟩ := e
    rw [definedEntries_cons]
    cases value with
    | undefined => exact ih
    | _ => exact congrArg (_ :: ·) ih

/-- The documents of items are made one after another. -/
theorem itemsToJson_eq (items : List Value) : itemsToJson items = items.mapM toJson := by
  induction items with
  | nil => rfl
  | cons item rest ih => rw [itemsToJson, List.mapM_cons, ih]

/-- The members for entries that are not absent are made one after another. -/
theorem entriesToJson_eq (entries : List (String × Value)) :
    entriesToJson entries =
      (definedEntries entries).mapM fun e => e.2.toJson.map fun document => (e.1, document) := by
  induction entries with
  | nil => rfl
  | cons e rest ih =>
    obtain ⟨key, value⟩ := e
    have hdefined (h : value ≠ .undefined) : entriesToJson ((key, value) :: rest) =
        ((key, value) :: definedEntries rest).mapM fun e =>
          e.2.toJson.map fun document => (e.1, document) := by
      rw [entriesToJson, List.mapM_cons, ih]
      · cases value.toJson <;> rfl
      · exact h
    rw [definedEntries_cons]
    cases value with
    | undefined => exact ih
    | _ => exact hdefined nofun

/-- The values of items are those of each. -/
theorem ofItems_eq (items : List Json) : ofItems items = items.map ofJson := by
  induction items with
  | nil => rfl
  | cons item rest ih => rw [ofItems, ih, List.map_cons]

/-- The values of members are those of each. -/
theorem ofMembers_eq (members : List (String × Json)) :
    ofMembers members = members.map fun m => (m.1, ofJson m.2) := by
  induction members with
  | nil => rfl
  | cons m rest ih => rw [ofMembers, ih, List.map_cons]

/-! ## Numbers -/

/-- Zero is the integer zero in JSON, with either sign. -/
theorem numberOfMagnitude_zero (negative : Bool) :
    numberOfMagnitude negative .zero = .integer 0 := by
  unfold numberOfMagnitude
  rw [if_pos ⟨Magnitude.isIntegral_zero, by rw [Magnitude.floor_zero]; decide⟩,
    Magnitude.floor_zero]
  cases negative <;> rfl

/-- A number comes back from JSON as it is, without the sign of zero. -/
theorem doubleOfNumber_numberOfMagnitude (negative : Bool) (x : Magnitude) :
    doubleOfNumber (numberOfMagnitude negative x) = (Double.finite negative x).unsignedZero := by
  rw [Double.unsignedZero]
  by_cases hzero : x.mantissa = 0
  · rw [if_pos hzero, Magnitude.eq_zero_of_mantissa hzero, numberOfMagnitude_zero]
    have h := Double.ofQuotient_floor false Magnitude.isIntegral_zero
    rw [Magnitude.floor_zero] at h
    exact h
  · rw [if_neg hzero]
    unfold numberOfMagnitude
    split
    · rename_i h
      -- The sign of an integer is that of the double, because the whole part is not zero.
      have hfloor : x.floor ≠ 0 := fun hfloor => by
        rw [Magnitude.eq_zero_of_floor h.1 hfloor] at hzero
        exact hzero rfl
      have hsign : decide ((if negative then -(x.floor : Int) else x.floor) < 0) = negative := by
        cases negative with
        | false => simp
        | true => simpa using Nat.pos_of_ne_zero hfloor
      have habs : (if negative then -(x.floor : Int) else x.floor).natAbs = x.floor := by
        cases negative <;> simp
      rw [doubleOfNumber, Double.ofInt, hsign, habs, Double.ofQuotient_floor negative h.1]
    · rfl

/-- A number that is not finite is the fault of itself. -/
theorem findSome?_errorOf_jsonNumber (numbers : List Double) :
    (numbers.findSome? fun d => errorOf (jsonNumber d)) =
      (numbers.find? fun d => !d.isFinite).map NonFinite.mk := by
  induction numbers with
  | nil => rfl
  | cons d rest ih =>
    rw [findSome?_cons_eq_or, ih, List.find?_cons]
    cases d <;> rfl

/-- The number of a finite double in normal form is that of the double. -/
theorem jsonNumber_unsignedZero (d : Double) : jsonNumber d.unsignedZero = jsonNumber d := by
  cases d with
  | finite negative x =>
    rw [Double.unsignedZero]
    by_cases hzero : x.mantissa = 0
    · rw [if_pos hzero, Magnitude.eq_zero_of_mantissa hzero, Double.zero, jsonNumber, jsonNumber,
        numberOfMagnitude_zero, numberOfMagnitude_zero]
    · rw [if_neg hzero]
  | _ => rfl

/-- A finite double is equal to itself without a sign at zero. -/
theorem eq_unsignedZero {d : Double} (h : d.isFinite = true) : d.unsignedZero.eq d = true := by
  cases d with
  | finite negative x =>
    rw [Double.unsignedZero]
    by_cases hzero : x.mantissa = 0
    · rw [if_pos hzero, Magnitude.eq_zero_of_mantissa hzero]
      cases negative <;> rfl
    · rw [if_neg hzero]
      simp [Double.eq]
  | _ => cases h

/-! ## The fault -/

/-- Absent entries can be left out of a search that finds nothing in them. -/
theorem findSome?_definedEntries {α : Type} {f : Value → Option α} (hf : f .undefined = none)
    (entries : List (String × Value)) :
    ((definedEntries entries).findSome? fun e => f e.2) = entries.findSome? fun e => f e.2 := by
  induction entries with
  | nil => rfl
  | cons e rest ih =>
    rw [definedEntries_cons, findSome?_cons_eq_or, ← ih]
    by_cases hundefined : e.2.isUndefined = true
    · rw [if_pos hundefined, isUndefined_iff.1 hundefined, hf, Option.none_or]
    · rw [if_neg hundefined, findSome?_cons_eq_or]

/-- The fault of a value is that of the first of its numbers that has one. -/
theorem errorOf_toJson (value : Value) :
    errorOf value.toJson = value.numbers.findSome? fun d => errorOf (jsonNumber d) := by
  induction value with
  | node value ih =>
    cases value with
    | undefined | null | bool | string => rfl
    | number d =>
      rw [toJson, numbers, errorOf_map, findSome?_cons_eq_or]
      exact Option.or_none.symm
    | array items =>
      rw [toJson, numbers, errorOf_map, itemsToJson_eq, errorOf_mapM, itemsNumbers_eq,
        findSome?_flatMap_eq]
      exact findSome?_congr_mem ih
    | object entries =>
      rw [toJson, numbers, errorOf_map, entriesToJson_eq, errorOf_mapM, entriesNumbers_eq,
        findSome?_flatMap_eq]
      simp only [errorOf_map]
      rw [findSome?_definedEntries (f := fun value => errorOf value.toJson) rfl]
      exact findSome?_congr_mem fun e he => ih e.2 (List.mem_map_of_mem he)

/-- A value all of whose numbers are finite has a document. -/
theorem exists_toJson {value : Value} (h : ∀ d ∈ value.numbers, d.isFinite = true) :
    ∃ document, value.toJson = .ok document := by
  rw [← errorOf_eq_none, errorOf_toJson, findSome?_errorOf_jsonNumber, Option.map_eq_none_iff,
    List.find?_eq_none]
  intro d hd
  rw [h d hd]
  exact Bool.false_ne_true

/-! ## There and back -/

/-- The document of a list holds those of its items. -/
theorem toJson_array {items : List Value} {document : Json} :
    (array items).toJson = .ok document ↔ ∃ documents,
      List.Forall₂ (fun item d => item.toJson = .ok d) items documents ∧
        .array documents = document := by
  rw [toJson, map_eq_ok, itemsToJson_eq]
  simp only [mapM_eq_ok]

/-- The document of an object holds those of its entries, under their names, but for those that are
absent. -/
theorem toJson_object {entries : List (String × Value)} {document : Json} :
    (object entries).toJson = .ok document ↔ ∃ members,
      List.Forall₂ (Entries.SameKey fun value d => value.toJson = .ok d) (definedEntries entries)
        members ∧ .object members = document := by
  have hsame (e : String × Value) (m : String × Json) :
      (e.2.toJson.map fun document => (e.1, document)) = .ok m ↔
        Entries.SameKey (fun value d => value.toJson = .ok d) e m := by
    rw [map_eq_ok]
    constructor
    · rintro ⟨document, hdocument, rfl⟩
      exact .intro e.1 hdocument
    · rintro ⟨key, hdocument⟩
      exact ⟨_, hdocument, rfl⟩
  rw [toJson, map_eq_ok, entriesToJson_eq]
  simp only [mapM_eq_ok, hsame]

/-- The normal form of a valid value comes back from its document. -/
theorem ofJson_eq_normal {value : Value} (hvalid : value.Valid) {document : Json}
    (h : value.toJson = .ok document) : ofJson document = value.normal := by
  induction value generalizing document with
  | node value ih =>
    cases value with
    | undefined | null | bool | string =>
      obtain rfl := Except.ok.inj h
      rfl
    | number d =>
      obtain ⟨n, hn, rfl⟩ := map_eq_ok.1 h
      cases d with
      | finite negative x =>
        obtain rfl := Except.ok.inj hn
        rw [ofJson, doubleOfNumber_numberOfMagnitude, normal]
      | _ => cases hn
    | array items =>
      obtain ⟨documents, hdocuments, rfl⟩ := toJson_array.1 h
      rw [valid_array] at hvalid
      have hitems : items.map normal = documents.map ofJson :=
        map_eq_of_forall₂ hdocuments fun item hitem d hd =>
          (ih item hitem (hvalid item hitem) hd).symm
      rw [ofJson, normal, ofItems_eq, normalItems_eq, hitems]
    | object entries =>
      obtain ⟨members, hmembers, rfl⟩ := toJson_object.1 h
      obtain ⟨hdistinct, hvalues⟩ := valid_object.1 hvalid
      have hentries : (definedEntries entries).map (fun e => (e.1, e.2.normal)) =
          members.map fun m => (m.1, ofJson m.2) := by
        refine map_eq_of_forall₂ hmembers fun e he m hsame => ?_
        obtain ⟨key, hd⟩ := hsame
        have hmem := List.mem_of_mem_filter he
        rw [ih _ (List.mem_map_of_mem hmem) (hvalues _ hmem) hd]
      -- No name is repeated, so each member is an entry of its own.
      have hnames : Entries.Distinct ((definedEntries entries).map fun e => (e.1, e.2.normal)) :=
        Entries.distinct_map (distinct_definedEntries hdistinct) fun e => e.2.normal
      rw [ofJson, normal, ofMembers_eq, normalEntries_eq, ← hentries,
        Entries.ofList_of_distinct hnames]

/-- No normal form is absent. -/
theorem normal_ne_undefined (value : Value) : value.normal ≠ .undefined := by
  cases value <;> exact nofun

/-- The normal form has the document of the value. -/
theorem toJson_normal {value : Value} {document : Json} (h : value.toJson = .ok document) :
    value.normal.toJson = .ok document := by
  induction value generalizing document with
  | node value ih =>
    cases value with
    | undefined | null | bool | string => exact h
    | number d =>
      rw [normal, toJson, jsonNumber_unsignedZero]
      exact h
    | array items =>
      obtain ⟨documents, hdocuments, rfl⟩ := toJson_array.1 h
      rw [normal, normalItems_eq, toJson_array]
      refine ⟨documents, ?_, rfl⟩
      rw [List.forall₂_map_left_iff]
      exact forall₂_imp_of_mem hdocuments fun item hitem d _ hd => ih item hitem hd
    | object entries =>
      obtain ⟨members, hmembers, rfl⟩ := toJson_object.1 h
      have hall : definedEntries ((definedEntries entries).map fun e => (e.1, e.2.normal)) =
          (definedEntries entries).map fun e => (e.1, e.2.normal) := by
        refine definedEntries_eq_self fun e he => ?_
        obtain ⟨e, -, rfl⟩ := List.mem_map.1 he
        exact e.2.normal_ne_undefined
      rw [normal, normalEntries_eq, toJson_object, hall]
      refine ⟨members, ?_, rfl⟩
      rw [List.forall₂_map_left_iff]
      refine forall₂_imp_of_mem hmembers fun e he m _ hsame => ?_
      obtain ⟨key, hd⟩ := hsame
      exact .intro key (ih _ (List.mem_map_of_mem (List.mem_of_mem_filter he)) hd)

/-- A value has a document in JSON exactly if all its numbers are finite, and otherwise its fault is
the first number that is not. What comes back from the document of a valid value is the value in
normal form, which has the same document. -/
theorem ofJson_toJson (value : Value) :
    ((∃ document, value.toJson = .ok document) ↔ ∀ d ∈ value.numbers, d.isFinite = true) ∧
    (∀ fault, value.toJson = .error fault ↔
      value.numbers.find? (fun d => !d.isFinite) = some fault.number) ∧
    (value.Valid → ∀ document, value.toJson = .ok document →
      ofJson document = value.normal ∧ (ofJson document).toJson = .ok document) := by
  have herror : errorOf value.toJson =
      (value.numbers.find? fun d => !d.isFinite).map NonFinite.mk := by
    rw [errorOf_toJson, findSome?_errorOf_jsonNumber]
  refine ⟨?_, fun fault => ?_, fun hvalid document h => ?_⟩
  · rw [← errorOf_eq_none, herror, Option.map_eq_none_iff, List.find?_eq_none]
    simp only [Bool.not_eq_true', Bool.not_eq_false]
  · rw [← errorOf_eq_some, herror, Option.map_eq_some_iff]
    constructor
    · rintro ⟨d, hd, rfl⟩
      exact hd
    · exact fun hd => ⟨fault.number, hd, rfl⟩
  · have hnormal : ofJson document = value.normal := ofJson_eq_normal hvalid h
    refine ⟨hnormal, ?_⟩
    rw [hnormal]
    exact toJson_normal h

/-- An object with an absent entry, and a list of an absent item, a negative zero and a one. -/
def sparse : Value :=
  .object [("gone", .undefined),
    ("list", .array [.undefined, .number (.finite true .zero), ofInt 1])]

/-- Of the three items the first comes back as null and the second without its sign. -/
theorem ofJson_toJson_sparse :
    sparse.Valid ∧ ∃ document, sparse.toJson = .ok document ∧
      ofJson document = .object [("list", .array [.null, .number .zero, ofInt 1])] ∧
      (ofJson document).toJson = .ok document := by
  have hvalid : sparse.Valid := by
    simp [sparse, Valid, ValidEntries, ValidItems, Entries.Distinct, Entries.keys, ofInt]
  have hfinite : ∀ d ∈ sparse.numbers, d.isFinite = true := by decide +kernel
  obtain ⟨hdocument, -, hback⟩ := ofJson_toJson sparse
  obtain ⟨document, h⟩ := hdocument.2 hfinite
  obtain ⟨hnormal, hagain⟩ := hback hvalid document h
  have hzero : (Double.finite true .zero).unsignedZero = .zero := rfl
  have hone : (Double.ofInt 1).unsignedZero = .ofInt 1 := by decide +kernel
  refine ⟨hvalid, document, h, ?_, hagain⟩
  rw [hnormal]
  simp [sparse, normal, normalEntries, normalItems, ofInt, hzero, hone]

end Value

end Conform

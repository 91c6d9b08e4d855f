import Conform.Proofs.Exactness

/-!
# The two ways to write a value

The text of a value in JSON is written at once (`Value.jsonText`) or by way of a document
(`Value.toJson` and `Json.compact`). The one asks of each list and object how many parts there will
be and then goes through them, the other makes a tree first and fails where a number is not finite.
`jsonText_eq_compact` says that the texts are the same, and that where there is no document the text
is that of the value with null in the place of every number that is not finite.

`Value.InJson` says what the document of a value is without a reference to either way. The parts
that a list or an object announces are as many as it has (`length_entriesText`), so that its
brackets are around them. The rest is one induction on the value for each of three facts: the text
of a document (`jsonText_of_toJson`), the document itself (`inJson_of_toJson`), and that null in the
place of numbers that are not finite changes no text (`jsonText_nullNonFinite`).
-/

namespace Conform

namespace Json

/-- The texts of items are those of each. -/
theorem compactItems_eq (items : List Json) : compactItems items = items.map compact := by
  induction items with
  | nil => rfl
  | cons item rest ih => rw [compactItems, ih, List.map_cons]

/-- The texts of members are those of each under its name. -/
theorem compactMembers_eq (members : List (String × Json)) :
    compactMembers members = members.map fun m => quote m.1 ++ ":" ++ m.2.compact := by
  induction members with
  | nil => rfl
  | cons m rest ih => rw [compactMembers, ih, List.map_cons]

end Json

namespace Value

/-- The document is the value in JSON. What is absent is null in a list and left out of an object,
and a number is a whole number if it is one below `2^53` in magnitude. -/
inductive InJson : Value → Json → Prop
  | undefined : InJson .undefined .null
  | null : InJson .null .null
  | bool (b : Bool) : InJson (.bool b) (.bool b)
  | integer {d : Double} {n : Int} (small : n.natAbs < 1 <<< 53)
    (same : Json.Number.SameValue (.integer n) (.float d)) :
    InJson (.number d) (.number (.integer n))
  | float {d : Double} (finite : d.isFinite = true)
    (other : ∀ n : Int, n.natAbs < 1 <<< 53 → ¬ Json.Number.SameValue (.integer n) (.float d)) :
    InJson (.number d) (.number (.float d))
  | string (s : String) : InJson (.string s) (.string s)
  | array {items : List Value} {documents : List Json}
    (h : List.Forall₂ InJson items documents) : InJson (.array items) (.array documents)
  | object {entries : List (String × Value)} {members : List (String × Json)}
    (h : List.Forall₂ (Entries.SameKey InJson) (definedEntries entries) members) :
    InJson (.object entries) (.object members)

mutual

/-- The value with null in the place of every number that is not finite. -/
def nullNonFinite : Value → Value
  | .undefined => .undefined
  | .null => .null
  | .bool b => .bool b
  | .number d => if d.isFinite then .number d else .null
  | .string s => .string s
  | .array items => .array (nullItems items)
  | .object entries => .object (nullEntries entries)

/-- The items with null in the place of every number that is not finite. -/
def nullItems : List Value → List Value
  | [] => []
  | item :: rest => nullNonFinite item :: nullItems rest

/-- The entries with null in the place of every number that is not finite. -/
def nullEntries : List (String × Value) → List (String × Value)
  | [] => []
  | (key, value) :: rest => (key, nullNonFinite value) :: nullEntries rest

end

/-! ## Lists and entries -/

/-- The texts of items are those of each. -/
theorem itemsText_eq (items : List Value) : itemsText items = items.map jsonText := by
  induction items with
  | nil => rfl
  | cons item rest ih => rw [itemsText, ih, List.map_cons]

/-- The texts of entries are those of each that is not absent, under its name. -/
theorem entriesText_eq (entries : List (String × Value)) :
    entriesText entries =
      (definedEntries entries).map fun e => Json.quote e.1 ++ ":" ++ e.2.jsonText := by
  induction entries with
  | nil => rfl
  | cons e rest ih =>
    obtain ⟨key, value⟩ := e
    rw [definedEntries_cons]
    cases value with
    | undefined => exact ih
    | _ => exact congrArg (_ :: ·) ih

/-- An object announces as many parts as are written. -/
theorem length_entriesText (entries : List (String × Value)) :
    (entriesText entries).length = definedCount entries := by
  rw [entriesText_eq, List.length_map, definedCount, Entries.values, List.filter_map,
    List.length_map]
  rfl

/-- The text of a list has the brackets around its items. -/
theorem jsonText_array (items : List Value) :
    (array items).jsonText = "[" ++ Json.commaSeparated (items.map jsonText) ++ "]" := by
  have hcount : items.length = 0 ↔ itemsText items = [] := by
    rw [itemsText_eq, List.map_eq_nil_iff, List.length_eq_zero_iff]
  rw [jsonText, Json.bracketed_eq _ _ hcount, itemsText_eq]

/-- The text of an object has the braces around its entries. -/
theorem jsonText_object (entries : List (String × Value)) :
    (object entries).jsonText =
      "\x7b" ++ Json.commaSeparated ((definedEntries entries).map fun e =>
        Json.quote e.1 ++ ":" ++ e.2.jsonText) ++ "\x7d" := by
  have hcount : definedCount entries = 0 ↔ entriesText entries = [] := by
    rw [← length_entriesText, List.length_eq_zero_iff]
  rw [jsonText, Json.bracketed_eq _ _ hcount, entriesText_eq]

/-- The items with null for numbers are those of each item. -/
theorem nullItems_eq (items : List Value) : nullItems items = items.map nullNonFinite := by
  induction items with
  | nil => rfl
  | cons item rest ih => rw [nullItems, ih, List.map_cons]

/-- The entries with null for numbers are those of each entry. -/
theorem nullEntries_eq (entries : List (String × Value)) :
    nullEntries entries = entries.map fun e => (e.1, e.2.nullNonFinite) := by
  induction entries with
  | nil => rfl
  | cons e rest ih => rw [nullEntries, ih, List.map_cons]

/-- Nothing becomes absent, and nothing that is absent becomes present. -/
theorem isUndefined_nullNonFinite (value : Value) :
    value.nullNonFinite.isUndefined = value.isUndefined := by
  cases value with
  | number d =>
    rw [nullNonFinite]
    split <;> rfl
  | _ => rfl

/-- The entries that are kept are the same with null for numbers and without. -/
theorem definedEntries_nullEntries (entries : List (String × Value)) :
    definedEntries (nullEntries entries) =
      (definedEntries entries).map fun e => (e.1, e.2.nullNonFinite) := by
  rw [nullEntries_eq, definedEntries, definedEntries, List.filter_map]
  simp only [Function.comp_def, isUndefined_nullNonFinite]

/-! ## Numbers -/

/-- A double that is a whole number below `2^53` is written as one by both ways. -/
theorem numberText_finite (negative : Bool) (x : Magnitude) :
    numberText (.finite negative x) = (numberOfMagnitude negative x).text := by
  rw [numberText, smallInteger?, numberOfMagnitude]
  by_cases h : x.isIntegral ∧ x.floor < 1 <<< 53
  · rw [if_pos h, if_pos h]
    rfl
  · rw [if_neg h, if_neg h]
    rfl

/-- A number that is not finite is written as null. -/
theorem numberText_nonFinite {d : Double} (h : d.isFinite ≠ true) : numberText d = "null" := by
  cases d with
  | finite negative x => exact absurd rfl h
  | _ => rfl

/-- A magnitude of as many units as a whole number has is that whole number. -/
theorem floor_of_units {x : Magnitude} {n : Nat} (h : x.units = n <<< Magnitude.unitBits) :
    x.isIntegral = true ∧ x.floor = n := by
  have hunits : x.units = n * (1 <<< Magnitude.unitBits) := by
    rw [h, Nat.shiftLeft_eq, Nat.one_shiftLeft]
  have hpos : 0 < 1 <<< Magnitude.unitBits := by
    rw [Nat.one_shiftLeft]
    exact Nat.two_pow_pos _
  constructor
  · rw [Magnitude.isIntegral, hunits, Nat.mul_mod_left]
    rfl
  · rw [Magnitude.floor, hunits, Nat.mul_div_cancel _ hpos]

/-- A double in JSON is the whole number that it is, if that is below `2^53` in magnitude, and else
itself. -/
theorem inJson_number (negative : Bool) (x : Magnitude) :
    (number (.finite negative x)).InJson (.number (numberOfMagnitude negative x)) := by
  have hsame := Json.Number.units?_numberOfMagnitude negative x
  unfold numberOfMagnitude at hsame ⊢
  by_cases h : x.isIntegral ∧ x.floor < 1 <<< 53
  · rw [if_pos h] at hsame ⊢
    refine .integer ?_ ⟨_, hsame, rfl⟩
    cases negative with
    | false => simpa using h.2
    | true => simpa using h.2
  · rw [if_neg h]
    refine .float rfl fun n hn => ?_
    rintro ⟨u, hinteger, hfloat⟩
    -- A whole number of the same value is the whole part, and would be below the bound.
    have hunits : x.units = n.natAbs <<< Magnitude.unitBits := by
      rw [Json.Number.units?_integer] at hinteger
      have heq := hinteger.trans hfloat.symm
      rw [Json.Number.units?, Double.units?, Option.some.injEq] at heq
      generalize n.natAbs <<< Magnitude.unitBits = a at heq ⊢
      split at heq <;> split at heq <;> omega
    obtain ⟨hintegral, hfloor⟩ := floor_of_units hunits
    exact h ⟨hintegral, hfloor ▸ hn⟩

/-! ## Values -/

/-- The document that a value has is the value in JSON. -/
theorem inJson_of_toJson {value : Value} {document : Json} (h : value.toJson = .ok document) :
    value.InJson document := by
  induction value generalizing document with
  | node value ih =>
    cases value with
    | undefined =>
      obtain rfl := Except.ok.inj h
      exact .undefined
    | null =>
      obtain rfl := Except.ok.inj h
      exact .null
    | bool b =>
      obtain rfl := Except.ok.inj h
      exact .bool b
    | string s =>
      obtain rfl := Except.ok.inj h
      exact .string s
    | number d =>
      obtain ⟨n, hn, rfl⟩ := map_eq_ok.1 h
      cases d with
      | finite negative x =>
        obtain rfl := Except.ok.inj hn
        exact inJson_number negative x
      | _ => cases hn
    | array items =>
      obtain ⟨documents, hdocuments, rfl⟩ := toJson_array.1 h
      exact .array (forall₂_imp_of_mem hdocuments fun item hitem d _ hd => ih item hitem hd)
    | object entries =>
      obtain ⟨members, hmembers, rfl⟩ := toJson_object.1 h
      refine .object (forall₂_imp_of_mem hmembers fun e he m _ hsame => ?_)
      obtain ⟨key, hd⟩ := hsame
      exact .intro key (ih _ (List.mem_map_of_mem (List.mem_of_mem_filter he)) hd)

/-- The text of a value that has a document is the text of the document. -/
theorem jsonText_of_toJson {value : Value} {document : Json} (h : value.toJson = .ok document) :
    value.jsonText = document.compact := by
  induction value generalizing document with
  | node value ih =>
    cases value with
    | undefined | null | bool | string =>
      obtain rfl := Except.ok.inj h
      rfl
    | number d =>
      obtain ⟨n, hn, rfl⟩ := map_eq_ok.1 h
      cases d with
      | finite negative x =>
        obtain rfl := Except.ok.inj hn
        exact numberText_finite negative x
      | _ => cases hn
    | array items =>
      obtain ⟨documents, hdocuments, rfl⟩ := toJson_array.1 h
      have htexts : items.map jsonText = documents.map Json.compact :=
        map_eq_of_forall₂ hdocuments fun item hitem d hd => ih item hitem hd
      rw [jsonText_array, Json.compact, Json.compactItems_eq, htexts]
    | object entries =>
      obtain ⟨members, hmembers, rfl⟩ := toJson_object.1 h
      have htexts : ((definedEntries entries).map fun e => Json.quote e.1 ++ ":" ++ e.2.jsonText) =
          members.map fun m => Json.quote m.1 ++ ":" ++ m.2.compact := by
        refine map_eq_of_forall₂ hmembers fun e he m hsame => ?_
        obtain ⟨key, hd⟩ := hsame
        rw [ih _ (List.mem_map_of_mem (List.mem_of_mem_filter he)) hd]
      rw [jsonText_object, Json.compact, Json.compactMembers_eq, htexts]

/-- With null in the place of numbers that are not finite, a value has the same text. -/
theorem jsonText_nullNonFinite (value : Value) : value.nullNonFinite.jsonText = value.jsonText := by
  induction value with
  | node value ih =>
    cases value with
    | undefined | null | bool | string => rfl
    | number d =>
      rw [nullNonFinite]
      split
      · rfl
      · rename_i h
        exact (numberText_nonFinite h).symm
    | array items =>
      have htexts : items.map (fun item => item.nullNonFinite.jsonText) = items.map jsonText :=
        List.map_congr_left ih
      rw [nullNonFinite, jsonText_array, jsonText_array, nullItems_eq, List.map_map, ← htexts]
      rfl
    | object entries =>
      have htexts : ((definedEntries entries).map fun e =>
            Json.quote e.1 ++ ":" ++ e.2.nullNonFinite.jsonText) =
          (definedEntries entries).map fun e => Json.quote e.1 ++ ":" ++ e.2.jsonText :=
        List.map_congr_left fun e he => by
          rw [ih _ (List.mem_map_of_mem (List.mem_of_mem_filter he))]
      rw [nullNonFinite, jsonText_object, jsonText_object, definedEntries_nullEntries,
        List.map_map, ← htexts]
      rfl

/-- With null in the place of the others, the numbers of a value are those that are finite. -/
theorem numbers_nullNonFinite (value : Value) :
    value.nullNonFinite.numbers = value.numbers.filter Double.isFinite := by
  induction value with
  | node value ih =>
    cases value with
    | undefined | null | bool | string => rfl
    | number d =>
      rw [nullNonFinite, numbers, List.filter_singleton]
      cases d.isFinite <;> rfl
    | array items =>
      rw [nullNonFinite, numbers, numbers, itemsNumbers_eq, itemsNumbers_eq, nullItems_eq,
        List.flatMap_map, List.filter_flatMap]
      exact List.flatMap_congr ih
    | object entries =>
      rw [nullNonFinite, numbers, numbers, entriesNumbers_eq, entriesNumbers_eq, nullEntries_eq,
        List.flatMap_map, List.filter_flatMap]
      exact List.flatMap_congr fun e he => ih e.2 (List.mem_map_of_mem he)

/-- A value with null in the place of every number that is not finite has a document. -/
theorem exists_toJson_nullNonFinite (value : Value) :
    ∃ document, value.nullNonFinite.toJson = .ok document := by
  apply exists_toJson
  rw [numbers_nullNonFinite]
  exact fun d hd => (List.mem_filter.1 hd).2

/-- The text of a value is that of its document, which is the value in JSON. Where a number that is
not finite leaves no document, the text is that of the document with null in the places of all such
numbers. -/
theorem jsonText_eq_compact (value : Value) :
    (∀ document, value.toJson = .ok document →
      value.jsonText = document.compact ∧ value.InJson document) ∧
    ∀ fault, value.toJson = .error fault →
      ∃ document, value.nullNonFinite.toJson = .ok document ∧
        value.jsonText = document.compact := by
  constructor
  · intro document h
    exact ⟨jsonText_of_toJson h, inJson_of_toJson h⟩
  · intro fault _
    obtain ⟨document, h⟩ := value.exists_toJson_nullNonFinite
    refine ⟨document, h, ?_⟩
    rw [← jsonText_nullNonFinite]
    exact jsonText_of_toJson h

/-- Two entries that are absent, one of them alone in its object, and a list with an absent item, a
number and a whole number. -/
def readingOf (d : Double) : Value :=
  .object [("gone", .undefined), ("list", .array [.undefined, .number d, ofInt (-3)]),
    ("inner", .object [("gone", .undefined)])]

/-- The document of a reading with a number in JSON, or null for it. -/
def readingDocument (number : Json) : Json :=
  .object [("list", .array [.null, number, .number (.integer (-3))]), ("inner", .object [])]

/-- One half is written as such, and what is no number as null. -/
theorem jsonText_eq_compact_reading :
    (readingOf (.ofDecimal false 5 (-1))).toJson =
        .ok (readingDocument (.number (.float (.ofDecimal false 5 (-1))))) ∧
      (readingOf (.ofDecimal false 5 (-1))).jsonText =
        (readingDocument (.number (.float (.ofDecimal false 5 (-1))))).compact ∧
      (readingOf (.ofDecimal false 5 (-1))).InJson
        (readingDocument (.number (.float (.ofDecimal false 5 (-1))))) ∧
      (readingOf (.ofDecimal false 5 (-1))).jsonText =
        "\x7b\"list\":[null,0.5,-3],\"inner\":\x7b\x7d\x7d" ∧
      (readingOf .nan).toJson = .error ⟨.nan⟩ ∧
      (∃ document, (readingOf .nan).nullNonFinite.toJson = .ok document ∧
        (readingOf .nan).jsonText = document.compact) ∧
      (readingOf .nan).jsonText = "\x7b\"list\":[null,null,-3],\"inner\":\x7b\x7d\x7d" := by
  have hhalf : jsonNumber (.ofDecimal false 5 (-1)) = .ok (.float (.ofDecimal false 5 (-1))) := by
    decide +kernel
  have hthree : jsonNumber (.ofInt (-3)) = .ok (.integer (-3)) := by decide +kernel
  have hdocument : (readingOf (.ofDecimal false 5 (-1))).toJson =
      .ok (readingDocument (.number (.float (.ofDecimal false 5 (-1))))) := by
    simp only [readingOf, readingDocument, ofInt, toJson, itemsToJson, entriesToJson, hhalf, hthree]
    rfl
  have hnan : (readingOf .nan).toJson = .error ⟨.nan⟩ := by rfl
  obtain ⟨htext, hinJson⟩ := (jsonText_eq_compact _).1 _ hdocument
  exact ⟨hdocument, htext, hinJson, by decide +kernel, hnan, (jsonText_eq_compact _).2 _ hnan,
    by decide +kernel⟩

end Value

end Conform

import Conform.Proofs.Trace
import Mathlib.Logic.Basic

/-!
# Verdicts of containers

What the verdict of a list, an object or an entry of a record says about the verdicts it is made
from. A list or an object fails exactly if one of its parts does (`ofItems_invalid`,
`ofEntries_invalid`), and has errors in its tree exactly if one of their trees has. Where all parts
pass, `ofItems_valid` and `ofEntries_valid` give the result: all values in order, for an object
without those that are absent.
-/

namespace Conform

/-- An outcome has a result or is a failure. -/
theorem Outcome.isValid_iff {o : Outcome} : o.isValid = true ↔ o ≠ .invalid := by
  cases o <;> simp [isValid]

/-- The value of the result, absent for a failure. -/
def Outcome.valueOrAbsent (o : Outcome) : Value := o.value?.getD .undefined

/-- What passes, passes with its value. -/
theorem Outcome.eq_valid {o : Outcome} (h : o ≠ .invalid) : o = .valid o.valueOrAbsent := by
  cases o with
  | valid value => rfl
  | invalid => exact absurd rfl h

/-- The entries whose values are not absent. -/
def definedEntries (entries : List (String × Value)) : List (String × Value) :=
  entries.filter fun e => !e.2.isUndefined

/-- The entries of two lists are those of the first and those of the second. -/
theorem definedEntries_append (first second : List (String × Value)) :
    definedEntries (first ++ second) = definedEntries first ++ definedEntries second :=
  List.filter_append ..

/-- Entries that are kept have distinct names if all have. -/
theorem distinct_definedEntries {entries : List (String × Value)} (h : Entries.Distinct entries) :
    Entries.Distinct (definedEntries entries) :=
  List.Nodup.sublist (List.filter_sublist.map Prod.fst) h

namespace Validation

/-- Items have errors if one of them has. -/
theorem itemsHaveErrors_eq (items : List Validation) :
    itemsHaveErrors items = items.any hasErrors := by
  induction items with
  | nil => rfl
  | cons item rest ih => rw [itemsHaveErrors, ih, List.any_cons]

/-- Entries have errors if one of them has. -/
theorem entriesHaveErrors_eq (entries : List (String × Validation)) :
    entriesHaveErrors entries = entries.any fun e => hasErrors e.2 := by
  induction entries with
  | nil => rfl
  | cons e rest ih => rw [entriesHaveErrors, ih, List.any_cons]

end Validation

namespace Verdict

/-! ## Lists -/

/-- One item more adds its value. -/
theorem itemResults?_cons (v : Verdict) (rest : List Verdict) :
    itemResults? (v :: rest) =
      v.outcome.value?.bind fun value => (itemResults? rest).map (value :: ·) := by
  cases hv : v.outcome <;> cases hr : itemResults? rest <;>
    simp [itemResults?, hv, hr, Outcome.value?]

/-- The results of items are the values that all their outcomes have. -/
theorem itemResults?_eq_some {items : List Verdict} {values : List Value} :
    itemResults? items = some values ↔ items.map outcome = values.map .valid := by
  induction items generalizing values with
  | nil => simp [itemResults?, eq_comm]
  | cons v rest ih =>
    rw [itemResults?_cons]
    cases hv : v.outcome with
    | invalid => cases values <;> simp [Outcome.value?, hv]
    | valid value =>
      cases values with
      | nil => simp [Outcome.value?]
      | cons w ws =>
        simp only [Outcome.value?, Option.bind_some, Option.map_eq_some_iff, ih, List.map_cons, hv,
          List.cons.injEq, Outcome.valid.injEq]
        constructor
        · rintro ⟨_, h, rfl, rfl⟩
          exact ⟨rfl, h⟩
        · rintro ⟨rfl, h⟩
          exact ⟨ws, h, rfl, rfl⟩

/-- A list of items that all pass passes with their values. -/
theorem ofItems_valid {items : List Verdict} {r : Value} :
    (ofItems items).outcome = .valid r ↔
      ∃ values, items.map outcome = values.map .valid ∧ r = .array values := by
  simp only [← itemResults?_eq_some, ofItems]
  cases itemResults? items <;> simp [eq_comm]

/-- Items that each pass with a known value make a list of these values. -/
theorem ofItems_map_valid {α : Type} {l : List α} {v : α → Verdict} {r : α → Value}
    (h : ∀ a ∈ l, (v a).outcome = .valid (r a)) :
    (ofItems (l.map v)).outcome = .valid (.array (l.map r)) := by
  rw [ofItems_valid]
  refine ⟨l.map r, ?_, rfl⟩
  rw [List.map_map, List.map_map]
  exact List.map_congr_left h

/-- A list fails if one of its items fails. -/
theorem ofItems_invalid {items : List Verdict} :
    (ofItems items).outcome = .invalid ↔ ∃ v ∈ items, v.outcome = .invalid := by
  induction items with
  | nil => simp [ofItems, itemResults?]
  | cons v rest ih =>
    simp only [List.mem_cons, exists_eq_or_imp, ← ih]
    cases hv : v.outcome <;> cases hr : itemResults? rest <;>
      simp [ofItems, itemResults?_cons, hv, hr, Outcome.value?]

/-- A list passes if all its items do, with their values, and else fails. -/
theorem outcome_ofItems (items : List Verdict) :
    (ofItems items).outcome =
      if items.all (·.outcome.isValid) then .valid (.array (items.map (·.outcome.valueOrAbsent)))
      else .invalid := by
  split
  · rename_i hall
    have hvalid (v : Verdict) (hv : v ∈ items) : v.outcome = .valid v.outcome.valueOrAbsent :=
      Outcome.eq_valid (Outcome.isValid_iff.1 (List.all_eq_true.1 hall v hv))
    simpa using ofItems_map_valid hvalid
  · rename_i hall
    rw [ofItems_invalid]
    simpa [Outcome.isValid_iff] using hall

/-- The tree of a list has errors if the tree of one of its items has. -/
theorem ofItems_hasErrors {items : List Verdict} :
    (ofItems items).validation.hasErrors = true ↔
      ∃ v ∈ items, v.validation.hasErrors = true := by
  simp [ofItems, Validation.hasErrors, Validation.itemsHaveErrors_eq]

/-! ## Objects and records -/

/-- One entry more adds its value, unless it is absent. -/
theorem entryResults?_cons (key : String) (v : Verdict) (rest : List (String × Verdict)) :
    entryResults? ((key, v) :: rest) =
      v.outcome.value?.bind fun value => (entryResults? rest).map fun results =>
        definedEntries [(key, value)] ++ results := by
  cases hv : v.outcome with
  | invalid => simp [entryResults?, hv, Outcome.value?]
  | valid value =>
    cases hr : entryResults? rest <;> cases value <;>
      simp [entryResults?, hv, hr, Outcome.value?, definedEntries, Value.isUndefined]

/-- The results of entries are the values that all their outcomes have, under the same keys and
without those that are absent. -/
theorem entryResults?_eq_some {entries : List (String × Verdict)}
    {results : List (String × Value)} :
    entryResults? entries = some results ↔
      ∃ values, entries.map (·.2.outcome) = values.map .valid ∧
        results = definedEntries ((Entries.keys entries).zip values) := by
  induction entries generalizing results with
  | nil => simp [entryResults?, definedEntries, eq_comm]
  | cons e rest ih =>
    obtain ⟨key, v⟩ := e
    rw [entryResults?_cons]
    cases hv : v.outcome with
    | invalid =>
      simp only [Outcome.value?, Option.bind_none, reduceCtorEq, false_iff]
      rintro ⟨values, h, -⟩
      cases values <;> simp [hv] at h
    | valid value =>
      simp only [Outcome.value?, Option.bind_some, Option.map_eq_some_iff, ih]
      constructor
      · rintro ⟨_, ⟨values, h, rfl⟩, rfl⟩
        exact ⟨value :: values, by simp [hv, h], (definedEntries_append [_] _).symm⟩
      · rintro ⟨values, h, rfl⟩
        -- The first of the values is that of the first entry, and the others are those of the rest.
        cases values with
        | nil => simp at h
        | cons w ws =>
          obtain ⟨hw, hws⟩ : v.outcome = .valid w ∧ rest.map (·.2.outcome) = ws.map .valid := by
            simpa using h
          obtain rfl : value = w := by simpa [hv] using hw
          exact ⟨_, ⟨ws, hws, rfl⟩, (definedEntries_append [_] _).symm⟩

/-- An object whose entries all pass passes with their values, without those that are absent. -/
theorem ofEntries_valid {entries : List (String × Verdict)} {r : Value} :
    (ofEntries entries).outcome = .valid r ↔
      ∃ values, entries.map (·.2.outcome) = values.map .valid ∧
        r = .object (definedEntries ((Entries.keys entries).zip values)) := by
  have h : (ofEntries entries).outcome = .valid r ↔
      ∃ results, entryResults? entries = some results ∧ r = .object results := by
    simp only [ofEntries]
    cases entryResults? entries <;> simp [eq_comm]
  simp only [h, entryResults?_eq_some]
  constructor
  · rintro ⟨_, ⟨values, hvalues, rfl⟩, rfl⟩
    exact ⟨values, hvalues, rfl⟩
  · rintro ⟨values, hvalues, rfl⟩
    exact ⟨_, ⟨values, hvalues, rfl⟩, rfl⟩

/-- Entries that each pass with a known value make an object of these values. -/
theorem ofEntries_map_valid {α : Type} {l : List α} {key : α → String} {v : α → Verdict}
    {r : α → Value} (h : ∀ a ∈ l, (v a).outcome = .valid (r a)) :
    (ofEntries (l.map fun a => (key a, v a))).outcome =
      .valid (.object (definedEntries (l.map fun a => (key a, r a)))) := by
  rw [ofEntries_valid]
  refine ⟨l.map r, ?_, ?_⟩
  · rw [List.map_map, List.map_map]
    exact List.map_congr_left h
  · rw [Entries.keys, List.map_map]
    exact congrArg (fun entries => Value.object (definedEntries entries)) (List.zip_map' ..).symm

/-- An object fails if one of its entries fails. -/
theorem ofEntries_invalid {entries : List (String × Verdict)} :
    (ofEntries entries).outcome = .invalid ↔ ∃ e ∈ entries, e.2.outcome = .invalid := by
  induction entries with
  | nil => simp [ofEntries, entryResults?]
  | cons e rest ih =>
    obtain ⟨key, v⟩ := e
    simp only [List.mem_cons, exists_eq_or_imp, ← ih]
    cases hv : v.outcome <;> cases hr : entryResults? rest <;>
      simp [ofEntries, entryResults?_cons, hv, hr, Outcome.value?]

/-- An object passes if all its entries do, with those of their values that are not absent, and else
fails. -/
theorem outcome_ofEntries (entries : List (String × Verdict)) :
    (ofEntries entries).outcome =
      if entries.all (·.2.outcome.isValid) then
        .valid (.object (definedEntries (entries.map fun e => (e.1, e.2.outcome.valueOrAbsent))))
      else .invalid := by
  split
  · rename_i hall
    have hvalid (e : String × Verdict) (he : e ∈ entries) :
        e.2.outcome = .valid e.2.outcome.valueOrAbsent :=
      Outcome.eq_valid (Outcome.isValid_iff.1 (List.all_eq_true.1 hall e he))
    simpa using @ofEntries_map_valid _ entries Prod.fst _ _ hvalid
  · rename_i hall
    rw [ofEntries_invalid]
    simpa [Outcome.isValid_iff] using hall

/-- The tree of an object has errors if the tree of one of its entries has. -/
theorem ofEntries_hasErrors {entries : List (String × Verdict)} :
    (ofEntries entries).validation.hasErrors = true ↔
      ∃ e ∈ entries, e.2.validation.hasErrors = true := by
  simp [ofEntries, Validation.hasErrors, Validation.entriesHaveErrors_eq]

/-! ## Entries of records -/

/-- An entry of a record fails if its key or its value does. -/
theorem ofKeyed_invalid {key value : Verdict} :
    (ofKeyed key value).outcome = .invalid ↔
      key.outcome = .invalid ∨ value.outcome = .invalid := by
  unfold ofKeyed
  split <;> simp_all

/-- Under a key that passes, an entry of a record has the verdict of its value. -/
theorem ofKeyed_of_ne_invalid {key : Verdict} (h : key.outcome ≠ .invalid) (value : Verdict) :
    ofKeyed key value = value := by
  unfold ofKeyed
  split
  · rfl
  · contradiction
  · contradiction

/-- Under a rejected key, a clean value leaves the error of the key. -/
theorem ofKeyed_fail_of_clean {value : Verdict} (h : value.validation = .clean) (error : String) :
    ofKeyed (fail error) value = fail error := by
  simp [ofKeyed, fail, h]

/-- Under a rejected key, a value with a tree keeps it. -/
theorem ofKeyed_fail_of_ne_clean {value : Verdict} (h : value.validation ≠ .clean)
    (error : String) : ofKeyed (fail error) value = ⟨.invalid, value.validation⟩ := by
  unfold ofKeyed
  split <;> simp_all [fail]

end Verdict

/-- A record fails exactly if one of its keys or values does or a key is missing. -/
theorem Schema.verdict_record_invalid (keys : KeyCheck) (values : Schema) (m : Modifiers)
    (entries : List (String × Value)) :
    ((record keys values m).verdict (.object entries)).outcome = .invalid ↔
      (∃ e ∈ entries, (keys.verdict e.1).outcome = .invalid ∨
        (values.verdict e.2).outcome = .invalid) ∨ missingIn keys values entries ≠ [] := by
  rw [verdict_record, Verdict.ofEntries_invalid]
  simp only [List.mem_append, List.mem_map, or_and_right, exists_or, exists_exists_and_eq_and,
    Verdict.ofKeyed_invalid]
  have hfail : (Verdict.fail missingProperty).outcome = .invalid := rfl
  have hne : (∃ key, key ∈ missingIn keys values entries) ↔ missingIn keys values entries ≠ [] :=
    ⟨fun ⟨_, h⟩ => List.ne_nil_of_mem h, List.exists_mem_of_ne_nil _⟩
  simp only [hfail, and_true, hne]

end Conform

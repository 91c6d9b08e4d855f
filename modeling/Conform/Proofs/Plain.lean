import Conform.Proofs.Induction
import Conform.Proofs.Numerals

/-!
# Plain values

A value is plain if JSON can hold all that is in it: no part is absent, all numbers are finite, and
no object has a name twice. Every value that comes from a document in JSON is plain
(`Value.plain_ofJson`).
-/

namespace Conform.Value

/-- Nothing in the value is absent, no number in it is infinite or not-a-number, and no object in it
has a name twice. -/
inductive Plain : Value → Prop
  | null : Plain .null
  | bool (b : Bool) : Plain (.bool b)
  | number {d : Double} (h : d.isFinite = true) : Plain (.number d)
  | string (s : String) : Plain (.string s)
  | array {items : List Value} (h : ∀ item ∈ items, Plain item) : Plain (.array items)
  | object {entries : List (String × Value)} (hdistinct : Entries.Distinct entries)
    (h : ∀ e ∈ entries, Plain e.2) : Plain (.object entries)

/-- In a plain value no object has a name twice. -/
theorem Plain.valid {value : Value} (h : value.Plain) : value.Valid := by
  induction h with
  | array _ ih => exact valid_array.2 ih
  | object hdistinct _ ih => exact valid_object.2 ⟨hdistinct, ih⟩
  | _ => trivial

/-- A plain value is not absent. -/
theorem Plain.ne_undefined {value : Value} (h : value.Plain) : value ≠ .undefined := by
  cases h <;> exact nofun

/-- Values are plain by their parts. -/
theorem ofParts_plain : OfParts Plain where
  array := ⟨fun | .array h => h, .array⟩
  object := ⟨fun | .object hdistinct h => ⟨hdistinct, h⟩, fun ⟨hdistinct, h⟩ => .object hdistinct h⟩

mutual

/-- The value of a JSON document is plain. -/
theorem plain_ofJson : ∀ document : Json, document.NumbersValid → (ofJson document).Plain
  | .null, _ => .null
  | .bool b, _ => .bool b
  | .number n, h => .number (h n (List.mem_singleton_self n)).isFinite
  | .string s, _ => .string s
  | .array items, h => by
    rw [ofJson]
    exact .array (plain_ofItems items (Json.numbersValid_array.1 h))
  | .object members, h => by
    rw [ofJson]
    refine .object (Entries.distinct_ofList _) fun e he => ?_
    exact plain_ofMembers members (Json.numbersValid_object.1 h) e (Entries.mem_ofList he)

/-- The values of the items are plain. -/
theorem plain_ofItems : ∀ items : List Json,
    (∀ item ∈ items, item.NumbersValid) → ∀ value ∈ ofItems items, value.Plain
  | [], _ => nofun
  | item :: rest, h => by
    obtain ⟨hitem, hrest⟩ := List.forall_mem_cons.1 h
    exact List.forall_mem_cons.2 ⟨plain_ofJson item hitem, plain_ofItems rest hrest⟩

/-- The values of the members are plain. -/
theorem plain_ofMembers : ∀ members : List (String × Json),
    (∀ m ∈ members, m.2.NumbersValid) → ∀ e ∈ ofMembers members, e.2.Plain
  | [], _ => nofun
  | (_, member) :: rest, h => by
    obtain ⟨hmember, hrest⟩ := List.forall_mem_cons.1 h
    exact List.forall_mem_cons.2 ⟨plain_ofJson member hmember, plain_ofMembers rest hrest⟩

end

end Conform.Value

import Conform.Proofs.Matching
import Conform.Proofs.Verdict

/-!
# Equal values

Equality of values looks at the entries of objects by their names and takes zero with either sign
for the same number. `Value.Alike` is equality of values in which no name is repeated, and
`Alike.rel` takes it apart by one level: lists are alike item by item, and objects are alike after
the entries of one have been put in the order of the other (`Entries.Matched`). What only looks at
the kind of a value, at its text or at the names of its entries cannot tell alike values apart.
-/

namespace Conform

namespace Double

/-- Equal doubles are the same, or both are zero. -/
theorem eq_iff {d e : Double} :
    d.eq e = true ↔ (d = e ∧ d ≠ .nan) ∨
      ∃ a b x, d = .finite a x ∧ e = .finite b x ∧ x.mantissa = 0 := by
  cases d with
  | finite a x =>
    cases e with
    | finite b y =>
      simp only [eq, Bool.and_eq_true, Bool.or_eq_true, beq_iff_eq, finite.injEq, ne_eq,
        reduceCtorEq, not_false_eq_true, and_true]
      constructor
      · rintro ⟨rfl, hsign | hzero⟩
        · exact .inl ⟨hsign, rfl⟩
        · exact .inr ⟨a, b, x, ⟨rfl, rfl⟩, ⟨rfl, rfl⟩, hzero⟩
      · rintro (⟨rfl, rfl⟩ | ⟨_, _, _, ⟨rfl, rfl⟩, ⟨rfl, rfl⟩, hzero⟩)
        · exact ⟨rfl, .inl rfl⟩
        · exact ⟨rfl, .inr hzero⟩
    | _ => simp [eq]
  | _ => cases e <;> simp [eq]

/-- Equal doubles have the same text. -/
theorem toText_congr {d e : Double} (h : d.eq e = true) : d.toText = e.toText := by
  rcases eq_iff.1 h with ⟨rfl, -⟩ | ⟨a, b, x, rfl, rfl, hzero⟩
  · rfl
  · simp [toText, hzero]

/-- Equal doubles are both whole or both not. -/
theorem isIntegral_congr {d e : Double} (h : d.eq e = true) : d.isIntegral = e.isIntegral := by
  rcases eq_iff.1 h with ⟨rfl, -⟩ | ⟨a, b, x, rfl, rfl, -⟩ <;> rfl

/-- A double equals both of two equal doubles or neither. -/
theorem eq_congr {d e : Double} (h : d.eq e = true) (c : Double) : c.eq d = c.eq e := by
  rcases eq_iff.1 h with ⟨rfl, -⟩ | ⟨a, b, x, rfl, rfl, hzero⟩
  · rfl
  · cases c with
    | finite s y =>
      -- Beside a zero no sign counts, and any other magnitude differs from it.
      by_cases hy : y = x
      · simp [eq, hy, hzero]
      · simp [eq, beq_eq_false_iff_ne.2 hy]
    | _ => rfl

/-- A finite double equals itself. -/
theorem eq_self_of_isFinite {d : Double} (h : d.isFinite = true) : d.eq d = true := by
  cases d with
  | finite negative x => simp [eq]
  | _ => cases h

end Double

namespace Value

/-! ## Equality by one level -/

/-- The values are of the same kind and differ at most in what they are made of: `R` relates the
items at each position, and the values under each name. -/
inductive Rel (R : Value → Value → Prop) : Value → Value → Prop
  | undefined : Rel R .undefined .undefined
  | null : Rel R .null .null
  | bool (b : Bool) : Rel R (.bool b) (.bool b)
  | number {d e : Double} (h : d.eq e = true) : Rel R (.number d) (.number e)
  | string (s : String) : Rel R (.string s) (.string s)
  | array {items others : List Value} (h : List.Forall₂ R items others) :
    Rel R (.array items) (.array others)
  | object {entries others : List (String × Value)} (h : Entries.Matched R entries others) :
    Rel R (.object entries) (.object others)

/-- Lists are equal exactly if their items are. -/
theorem equalItems_iff {items others : List Value} :
    equalItems items others = true ↔ List.Forall₂ (fun a b => a.equal b = true) items others := by
  induction items generalizing others with
  | nil => cases others <;> simp [equalItems]
  | cons item rest ih => cases others <;> simp [equalItems, ih]

/-- Entries are found among others exactly if each name leads to an equal value. -/
theorem equalEntries_iff {entries others : List (String × Value)} :
    equalEntries entries others = true ↔
      ∀ e ∈ entries, ∃ value, Entries.get? e.1 others = some value ∧ e.2.equal value = true := by
  induction entries with
  | nil => simp [equalEntries]
  | cons e rest ih =>
    obtain ⟨key, value⟩ := e
    cases hother : Entries.get? key others <;> simp [equalEntries, hother, ih]

/-- Objects that are matched by equality are equal. -/
theorem equal_object {entries others : List (String × Value)}
    (h : Entries.Matched (fun a b => a.equal b = true) entries others)
    (hothers : Entries.Distinct others) : (object entries).equal (object others) = true := by
  rw [equal, Bool.and_eq_true, beq_iff_eq, equalEntries_iff]
  refine ⟨h.length_eq, fun e he => ?_⟩
  obtain ⟨o, ho, ⟨key, heq⟩⟩ := h.exists_of_mem he
  exact ⟨_, Entries.get?_of_mem hothers ho, heq⟩

/-- Equal values are both absent or both not. -/
theorem isUndefined_eq_of_equal {a b : Value} (h : a.equal b = true) :
    a.isUndefined = b.isUndefined := by
  cases a <;> cases b <;> first | rfl | cases h

/-- The values are equal, and in neither is a name repeated. -/
structure Alike (a b : Value) : Prop where
  valid : a.Valid
  valid' : b.Valid
  equal : a.equal b = true

/-- Alike values are made of alike values. -/
theorem Alike.rel {a b : Value} (h : a.Alike b) : Rel Alike a b := by
  obtain ⟨ha, hb, heq⟩ := h
  cases a with
  | array items =>
    cases b with
    | array others =>
      rw [valid_array] at ha hb
      rw [Value.equal, equalItems_iff] at heq
      exact .array (forall₂_imp_of_mem heq fun a hitem b hother hequal =>
        ⟨ha a hitem, hb b hother, hequal⟩)
    | _ => cases heq
  | object entries =>
    cases b with
    | object others =>
      rw [valid_object] at ha hb
      rw [Value.equal, Bool.and_eq_true, beq_iff_eq, equalEntries_iff] at heq
      refine .object (Entries.matched_of_get? ha.1 hb.1 heq.1 fun e he => ?_)
      obtain ⟨value, hvalue, hequal⟩ := heq.2 e he
      exact ⟨value, hvalue, ha.2 e he, hb.2 _ (Entries.mem_of_get? hvalue), hequal⟩
    | _ => cases heq
  | number d =>
    cases b with
    | number e => exact .number heq
    | _ => cases heq
  | bool c =>
    cases b with
    | bool d =>
      obtain rfl : c = d := eq_of_beq heq
      exact .bool c
    | _ => cases heq
  | string s =>
    cases b with
    | string t =>
      obtain rfl : s = t := eq_of_beq heq
      exact .string s
    | _ => cases heq
  | null =>
    cases b with
    | null => exact .null
    | _ => cases heq
  | undefined =>
    cases b with
    | undefined => exact .undefined
    | _ => cases heq

/-! ## What alike values have in common -/

section

variable {R : Value → Value → Prop} {a b : Value}

/-- Values of the same kind have its name. -/
theorem Rel.typeName_eq (h : Rel R a b) : a.typeName = b.typeName := by
  cases h <;> rfl

/-- A value of the same kind as one that is present is present. -/
theorem Rel.present (h : Rel R a b) (present : a.Present) : b.Present := by
  cases h with
  | null => exact absurd rfl present.1
  | undefined => exact absurd rfl present.2
  | _ => exact ⟨nofun, nofun⟩

/-- A value of the same kind as one that is no list is none. -/
theorem Rel.ne_array (h : Rel R a b) (ha : ∀ items, a ≠ .array items) (items : List Value) :
    b ≠ .array items := by
  rintro rfl
  cases h
  exact ha _ rfl

/-- A value of the same kind as one that is no object is none. -/
theorem Rel.ne_object (h : Rel R a b) (ha : ∀ entries, a ≠ .object entries)
    (entries : List (String × Value)) : b ≠ .object entries := by
  rintro rfl
  cases h
  exact ha _ rfl

end

/-- The text of an item of a list, empty for one that is absent or null. -/
def itemText : Value → String
  | .undefined | .null => ""
  | item => item.toText

/-- The texts of items are the text of each. -/
theorem itemTexts_eq (items : List Value) : itemTexts items = items.map itemText := by
  induction items with
  | nil => rfl
  | cons item rest ih =>
    cases item <;> simp [itemTexts, itemText, ih]

/-- Alike values have the same text. -/
theorem Alike.toText_eq {a b : Value} (h : a.Alike b) : a.toText = b.toText := by
  induction a generalizing b with
  | node a ih =>
    -- Objects all have one text, so that only lists go on to what they are made of.
    cases h.rel with
    | number heq => exact Double.toText_congr heq
    | @array items others hitems =>
      have htexts : List.Forall₂ Eq (items.map itemText) (others.map itemText) := by
        rw [List.forall₂_map_left_iff, List.forall₂_map_right_iff]
        refine forall₂_imp_of_mem hitems fun item hmem other _ halike => ?_
        have htext := ih item hmem halike
        cases halike.rel <;> first | rfl | exact htext
      rw [List.forall₂_eq_eq_eq] at htexts
      rw [toText, toText, itemTexts_eq, itemTexts_eq, htexts]
    | _ => rfl

/-- Alike values have alike values under every name. -/
theorem Alike.get {a b : Value} (h : a.Alike b) (key : String) : (a.get key).Alike (b.get key) := by
  have hundefined : Alike .undefined .undefined := ⟨trivial, trivial, rfl⟩
  cases h.rel with
  | object hentries =>
    exact rel_getD (hentries.get? (valid_object.1 h.valid').1 key) hundefined
  | _ => exact hundefined

end Value

end Conform

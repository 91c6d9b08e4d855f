import Conform.Proofs.Interchange
import Conform.Proofs.Numerals

/-!
# Numbers that come through values

All numbers of values are doubles. A document in JSON that is read as a value and written again has
all its parts and keys in their places, and only its numbers have been through a double
(`Value.toJson_ofJson_eq`). A number comes back as a double that no other is nearer to
(`Json.Number.nearest_throughDouble`), which is the same number exactly if there is a double for it.
There is one for every float and for every whole number that is at most `2^53` in magnitude, and
none for the whole number after that.

Numbers are compared by what they are in units of `2^-1074`, of which every double is a whole
number.
-/

namespace Conform

/-- The double in units of `2^-1074`, if it is finite. -/
def Double.units? : Double → Option Int
  | .finite negative x => some (if negative then -x.units else x.units)
  | _ => none

namespace Json

namespace Number

/-- The number in units of `2^-1074`, if it is finite. -/
def units? : Number → Option Int
  | .integer n => some (n * (1 <<< Magnitude.unitBits : Nat))
  | .float d => d.units?

/-- The numbers are finite and the same, whichever way each is written. -/
def SameValue (n m : Number) : Prop := ∃ u, n.units? = some u ∧ m.units? = some u

/-- There is a double that is the number. -/
def HasDouble (n : Number) : Prop := ∃ d : Double, n.SameValue (.float d)

/-- The second number is a double, and no double is nearer to the first. -/
structure Nearest (n m : Number) : Prop where
  /-- There is a double that is the second number. -/
  hasDouble : m.HasDouble
  /-- In units, every double is at least as far from the first number as the second is. -/
  le : ∃ u v, n.units? = some u ∧ m.units? = some v ∧
    ∀ (d : Double) (w : Int), d.units? = some w → (u - v).natAbs ≤ (u - w).natAbs

/-- What a number is in JSON after it has been a double. -/
def throughDouble (n : Number) : Number :=
  match Value.doubleOfNumber n with
  | .finite negative x => Value.numberOfMagnitude negative x
  | _ => n

/-- The double that is nearest to a number is the number exactly if there is a double for it. -/
theorem Nearest.sameValue_iff {n m : Number} (h : n.Nearest m) : n.SameValue m ↔ n.HasDouble := by
  constructor
  · rintro ⟨u, hn, hm⟩
    obtain ⟨d, v, hm', hd⟩ := h.hasDouble
    have huv : some u = some v := hm.symm.trans hm'
    exact ⟨d, u, hn, huv ▸ hd⟩
  · rintro ⟨d, u, hn, hd⟩
    obtain ⟨u', v, hn', hm, hle⟩ := h.le
    obtain rfl : u = u' := Option.some.inj (hn.symm.trans hn')
    -- The number has no distance from the double that it is.
    have hzero : (u - v).natAbs ≤ (u - u).natAbs := hle d u hd
    obtain rfl : u = v := by omega
    exact ⟨u, hn, hm⟩

/-- Another way to write a number that is nearest is nearest too. -/
theorem Nearest.congr {n m m' : Number} (h : n.Nearest m) (hm : m'.units? = m.units?) :
    n.Nearest m' := by
  obtain ⟨d, v, hv, hd⟩ := h.hasDouble
  obtain ⟨u, w, hu, hw, hle⟩ := h.le
  exact ⟨⟨d, v, hm.trans hv, hd⟩, u, w, hu, hm.trans hw, hle⟩

/-- A finite double is a double. -/
theorem hasDouble_float {d : Double} (h : d.isFinite = true) : (Number.float d).HasDouble := by
  cases d with
  | finite negative x => exact ⟨.finite negative x, _, rfl, rfl⟩
  | _ => cases h

/-- Nothing is nearer to a double than itself. -/
theorem HasDouble.nearest_self {n : Number} (h : n.HasDouble) : n.Nearest n := by
  obtain ⟨d, u, hn, hd⟩ := h
  refine ⟨⟨d, u, hn, hd⟩, u, u, hn, hn, fun d w _ => ?_⟩
  rw [Int.sub_self]
  exact Nat.zero_le _

/-- A number that is written without a fraction is the same number. -/
theorem units?_numberOfMagnitude (negative : Bool) (x : Magnitude) :
    (Value.numberOfMagnitude negative x).units? = (Double.finite negative x).units? := by
  unfold Value.numberOfMagnitude
  split
  · rename_i h
    have hunits : (x.floor : Int) * (1 <<< Magnitude.unitBits : Nat) = x.units := by
      rw [← Int.natCast_mul, Nat.one_shiftLeft, ← Nat.shiftLeft_eq, Magnitude.floor_shiftLeft h.1]
    rw [units?, Double.units?, ← hunits]
    cases negative with
    | false => rw [if_neg Bool.false_ne_true, if_neg Bool.false_ne_true]
    | true => rw [if_pos rfl, if_pos rfl, Int.neg_mul]
  · rfl

/-- A whole number of 64 bits is rounded to a double under its sign. -/
theorem exists_ofInt_eq {n : Int} (h : n.natAbs < 1 <<< 64) : ∃ x,
    Double.ofInt n = .finite (n < 0) x ∧
      Magnitude.round (n.natAbs <<< Magnitude.unitBits) 1 = some x := by
  have hfinite := Double.isFinite_ofInt h
  unfold Double.ofInt Double.ofQuotient at hfinite ⊢
  cases hround : Magnitude.round (n.natAbs <<< Magnitude.unitBits) 1 with
  | some x => exact ⟨x, rfl, rfl⟩
  | none =>
    rw [hround] at hfinite
    cases hfinite

/-- The units of a whole number are those of its magnitude under its sign. -/
theorem units?_integer (n : Int) :
    (integer n).units? =
      some (if n < 0 then -((n.natAbs <<< Magnitude.unitBits : Nat) : Int)
        else (n.natAbs <<< Magnitude.unitBits : Nat)) := by
  rw [units?, Nat.shiftLeft_eq n.natAbs, ← Nat.one_shiftLeft, Int.natCast_mul]
  split
  · rename_i h
    rw [Int.ofNat_natAbs_of_nonpos (Int.le_of_lt h), Int.neg_mul, Int.neg_neg]
  · rename_i h
    rw [Int.natAbs_of_nonneg (Int.not_lt.1 h)]

/-- There is a double for every whole number that is at most `2^53` in magnitude. -/
theorem hasDouble_integer {n : Int} (h : n.natAbs ≤ 1 <<< 53) : (integer n).HasDouble := by
  have hbits : n.natAbs < 1 <<< 64 := Nat.lt_of_le_of_lt h (by decide)
  obtain ⟨x, hofInt, hround⟩ := exists_ofInt_eq hbits
  have hunits : x.units = n.natAbs <<< Magnitude.unitBits := by
    rcases Nat.lt_or_eq_of_le h with hlt | heq
    · exact Magnitude.units_round_shiftLeft hlt hround
    · rw [heq, ← Nat.shiftLeft_add] at hround ⊢
      exact Magnitude.units_round_shiftLeft (by decide) hround
  refine ⟨.finite (n < 0) x, _, units?_integer n, ?_⟩
  rw [units?, Double.units?, hunits]
  simp only [decide_eq_true_eq]

/-- No double is nearer to a whole number than the one that it is rounded to. -/
theorem nearest_ofInt {n : Int} (h : n.natAbs < 1 <<< 64) :
    (integer n).Nearest (.float (.ofInt n)) := by
  obtain ⟨x, hofInt, hround⟩ := exists_ofInt_eq h
  rw [hofInt]
  refine ⟨hasDouble_float rfl, _, _, units?_integer n, rfl, fun d w hw => ?_⟩
  cases d with
  | finite negative y =>
    -- Of a double and its negative the one with the sign of the number is not further away.
    have hnearest := Magnitude.round_nearest hround y
    have hsign : w = y.units ∨ w = -y.units := by
      cases negative with
      | false => exact .inl (Option.some.inj hw).symm
      | true => exact .inr (Option.some.inj hw).symm
    generalize n.natAbs <<< Magnitude.unitBits = magnitude at hnearest ⊢
    by_cases hn : n < 0
    · simp only [hn, if_true, decide_true]
      omega
    · simp only [hn, if_false, decide_false, Bool.false_eq_true]
      omega
  | _ => cases hw

/-- No double is nearer to a number than the one that it is read as. -/
theorem nearest_doubleOfNumber {n : Number} (h : n.Valid) :
    n.Nearest (.float (Value.doubleOfNumber n)) := by
  cases n with
  | integer n =>
    have hbounds : -9223372036854775808 ≤ n ∧ n < 18446744073709551616 := h
    exact nearest_ofInt (by omega)
  | float d => exact (hasDouble_float h).nearest_self

/-- A number is read as a sign and a magnitude. -/
theorem Valid.exists_finite {n : Number} (h : n.Valid) :
    ∃ negative x, Value.doubleOfNumber n = .finite negative x := by
  have hfinite := h.isFinite
  cases hn : Value.doubleOfNumber n with
  | finite negative x => exact ⟨negative, x, rfl⟩
  | _ =>
    rw [hn] at hfinite
    cases hfinite

/-- A number that has been a double is that double. -/
theorem units?_throughDouble {n : Number} (h : n.Valid) :
    n.throughDouble.units? = (Value.doubleOfNumber n).units? := by
  obtain ⟨negative, x, hx⟩ := h.exists_finite
  unfold throughDouble
  rw [hx]
  exact units?_numberOfMagnitude negative x

/-- A number comes through values as a double that no other is nearer to. -/
theorem nearest_throughDouble {n : Number} (h : n.Valid) : n.Nearest n.throughDouble :=
  (nearest_doubleOfNumber h).congr (units?_throughDouble h)

end Number

/-! ## Documents -/

mutual

/-- The document with other numbers in the places of its own. -/
def mapNumbers (f : Number → Number) : Json → Json
  | .null => .null
  | .bool b => .bool b
  | .number n => .number (f n)
  | .string s => .string s
  | .array items => .array (mapItems f items)
  | .object members => .object (mapMembers f members)

/-- The items with other numbers. -/
def mapItems (f : Number → Number) : List Json → List Json
  | [] => []
  | item :: rest => mapNumbers f item :: mapItems f rest

/-- The members with other numbers, under the same names. -/
def mapMembers (f : Number → Number) : List (String × Json) → List (String × Json)
  | [] => []
  | (name, member) :: rest => (name, mapNumbers f member) :: mapMembers f rest

end

/-- The documents are the same but for their numbers, which are related in each place. Members are
in the same order. -/
inductive Matched (R : Number → Number → Prop) : Json → Json → Prop
  | null : Matched R .null .null
  | bool (b : Bool) : Matched R (.bool b) (.bool b)
  | number {n m : Number} (h : R n m) : Matched R (.number n) (.number m)
  | string (s : String) : Matched R (.string s) (.string s)
  | array {items others : List Json} (h : List.Forall₂ (Matched R) items others) :
    Matched R (.array items) (.array others)
  | object {members others : List (String × Json)}
    (h : List.Forall₂ (Entries.SameKey (Matched R)) members others) :
    Matched R (.object members) (.object others)

variable {R : Number → Number → Prop} {f : Number → Number}

mutual

/-- A document with other numbers is matched exactly if its numbers are related to these. -/
theorem matched_mapNumbers : ∀ document : Json,
    Matched R document (document.mapNumbers f) ↔ ∀ n ∈ document.numbers, R n (f n)
  | .null => ⟨fun _ => nofun, fun _ => .null⟩
  | .bool b => ⟨fun _ => nofun, fun _ => .bool b⟩
  | .string s => ⟨fun _ => nofun, fun _ => .string s⟩
  | .number n => by
    rw [mapNumbers, numbers, List.forall_mem_singleton]
    exact ⟨fun h => by cases h; assumption, .number⟩
  | .array items => by
    rw [mapNumbers, numbers, ← matched_mapItems items]
    exact ⟨fun h => by cases h; assumption, .array⟩
  | .object members => by
    rw [mapNumbers, numbers, ← matched_mapMembers members]
    exact ⟨fun h => by cases h; assumption, .object⟩

/-- Items with other numbers are matched exactly if their numbers are related to these. -/
theorem matched_mapItems : ∀ items : List Json,
    List.Forall₂ (Matched R) items (mapItems f items) ↔ ∀ n ∈ itemsNumbers items, R n (f n)
  | [] => ⟨fun _ => nofun, fun _ => .nil⟩
  | item :: rest => by
    rw [mapItems, itemsNumbers, List.forall_mem_append, List.forall₂_cons, matched_mapNumbers item,
      matched_mapItems rest]

/-- Members with other numbers are matched exactly if their numbers are related to these. -/
theorem matched_mapMembers : ∀ members : List (String × Json),
    List.Forall₂ (Entries.SameKey (Matched R)) members (mapMembers f members) ↔
      ∀ n ∈ membersNumbers members, R n (f n)
  | [] => ⟨fun _ => nofun, fun _ => .nil⟩
  | (name, member) :: rest => by
    have hmember : Entries.SameKey (Matched R) (name, member) (name, member.mapNumbers f) ↔
        Matched R member (member.mapNumbers f) := ⟨fun h => by cases h; assumption, .intro name⟩
    rw [mapMembers, membersNumbers, List.forall_mem_append, List.forall₂_cons, hmember,
      matched_mapNumbers member, matched_mapMembers rest]

end

mutual

/-- In a valid document all numbers are numbers that JSON holds. -/
theorem Valid.numbersValid : ∀ document : Json, document.Valid → document.NumbersValid
  | .null, _ | .bool _, _ | .string _, _ => nofun
  | .number _, h => List.forall_mem_singleton.2 h
  | .array items, h => numbersValid_array.2 (ValidItems.numbersValid items h)
  | .object members, h => numbersValid_object.2 (ValidMembers.numbersValid members h.2)

/-- In valid items all numbers are numbers that JSON holds. -/
theorem ValidItems.numbersValid : ∀ items : List Json, ValidItems items →
    ∀ item ∈ items, item.NumbersValid
  | [], _ => nofun
  | item :: rest, h => List.forall_mem_cons.2
      ⟨Valid.numbersValid item h.1, ValidItems.numbersValid rest h.2⟩

/-- In valid members all numbers are numbers that JSON holds. -/
theorem ValidMembers.numbersValid : ∀ members : List (String × Json), ValidMembers members →
    ∀ m ∈ members, m.2.NumbersValid
  | [], _ => nofun
  | (_, member) :: rest, h => List.forall_mem_cons.2
      ⟨Valid.numbersValid member h.1, ValidMembers.numbersValid rest h.2⟩

end

end Json

namespace Value

/-- No value of a document in JSON is absent. -/
theorem ofJson_ne_undefined (document : Json) : ofJson document ≠ .undefined := by
  cases document <;> exact nofun

/-- A number of JSON is written as it is after it has been a double. -/
theorem jsonNumber_doubleOfNumber {n : Json.Number} (h : n.Valid) :
    jsonNumber (doubleOfNumber n) = .ok n.throughDouble := by
  obtain ⟨negative, x, hx⟩ := h.exists_finite
  unfold Json.Number.throughDouble
  rw [hx]
  rfl

mutual

/-- A document that is read as a value is written with its numbers as they are after they have been
doubles, and else as it was. -/
theorem toJson_ofJson_eq : ∀ document : Json, document.Valid →
    (ofJson document).toJson = .ok (document.mapNumbers Json.Number.throughDouble)
  | .null, _ | .bool _, _ | .string _, _ => rfl
  | .number n, h => by
    rw [ofJson, toJson, jsonNumber_doubleOfNumber h]
    rfl
  | .array items, h => by
    rw [ofJson, toJson, itemsToJson_ofItems items h]
    rfl
  | .object members, h => by
    have hdistinct : Entries.Distinct (ofMembers members) := by
      rw [ofMembers_eq]
      exact Entries.distinct_map h.1 _
    rw [ofJson, toJson, Entries.ofList_of_distinct hdistinct, entriesToJson_ofMembers members h.2]
    rfl

/-- Items that are read as values are written as such. -/
theorem itemsToJson_ofItems : ∀ items : List Json, Json.ValidItems items →
    itemsToJson (ofItems items) = .ok (Json.mapItems Json.Number.throughDouble items)
  | [], _ => rfl
  | item :: rest, h => by
    rw [ofItems, itemsToJson, toJson_ofJson_eq item h.1, itemsToJson_ofItems rest h.2]
    rfl

/-- Members that are read as values are written as such. -/
theorem entriesToJson_ofMembers : ∀ members : List (String × Json), Json.ValidMembers members →
    entriesToJson (ofMembers members) = .ok (Json.mapMembers Json.Number.throughDouble members)
  | [], _ => rfl
  | (name, member) :: rest, h => by
    rw [ofMembers, entriesToJson, toJson_ofJson_eq member h.1, entriesToJson_ofMembers rest h.2]
    · rfl
    · exact ofJson_ne_undefined member

end

/-- A valid document that is read as a value is written again with the same parts and the same keys
in the same order, and each number as a double that no other is nearer to. It is the same document,
by the values of its numbers, exactly if there is a double for each of its numbers, as there is if
its whole numbers are at most `2^53` in magnitude. -/
theorem toJson_ofJson (document : Json) (h : document.Valid) :
    ∃ back, (ofJson document).toJson = .ok back ∧ document.Matched Json.Number.Nearest back ∧
      (document.Matched Json.Number.SameValue back ↔ ∀ n ∈ document.numbers, n.HasDouble) ∧
      ((∀ n : Int, .integer n ∈ document.numbers → n.natAbs ≤ 1 <<< 53) →
        document.Matched Json.Number.SameValue back) := by
  have hnumbers : document.NumbersValid := Json.Valid.numbersValid document h
  have hnearest : ∀ n ∈ document.numbers, n.Nearest n.throughDouble := fun n hn =>
    Json.Number.nearest_throughDouble (hnumbers n hn)
  have hsame : document.Matched Json.Number.SameValue
      (document.mapNumbers Json.Number.throughDouble) ↔ ∀ n ∈ document.numbers, n.HasDouble := by
    rw [Json.matched_mapNumbers]
    exact forall₂_congr fun n hn => (hnearest n hn).sameValue_iff
  refine ⟨_, toJson_ofJson_eq document h, (Json.matched_mapNumbers document).2 hnearest, hsame,
    fun hsmall => hsame.2 fun n hn => ?_⟩
  cases n with
  | integer n => exact Json.Number.hasDouble_integer (hsmall n hn)
  | float d => exact Json.Number.hasDouble_float (hnumbers _ hn)

/-- The whole number that follows `2^53` comes back as `2^53`. -/
theorem not_sameValue_toJson_ofJson :
    (Json.number (.integer 9007199254740993)).Valid ∧
      (ofJson (.number (.integer 9007199254740993))).toJson =
        .ok (.number (.float (.ofNat 9007199254740992))) ∧
      ¬ (Json.number (.integer 9007199254740993)).Matched Json.Number.SameValue
        (.number (.float (.ofNat 9007199254740992))) := by
  have hvalid : (Json.number (.integer 9007199254740993)).Valid := ⟨by decide, by decide⟩
  have hthrough : (Json.Number.integer 9007199254740993).throughDouble =
      .float (.ofNat 9007199254740992) := by decide +kernel
  have hunits : (Json.Number.integer 9007199254740993).units? ≠
      (Json.Number.float (.ofNat 9007199254740992)).units? := by decide +kernel
  refine ⟨hvalid, ?_, fun hmatched => ?_⟩
  · rw [toJson_ofJson_eq _ hvalid, Json.mapNumbers, hthrough]
  · cases hmatched with
    | number h =>
      obtain ⟨u, hn, hm⟩ := h
      exact hunits (hn.trans hm.symm)

/-- A document with the last whole number before the first that is no double, a negative one, a
fraction, and a zero with a sign. -/
def exactDocument : Json :=
  .object [("n", .array [.number (.integer 9007199254740992), .number (.integer (-1))]),
    ("a", .number (.float (.ofDecimal false 15 (-1)))),
    ("zero", .number (.float (.finite true .zero)))]

/-- Such numbers come back as the same, the fraction and the zero among them. -/
theorem toJson_ofJson_exactDocument :
    exactDocument.Valid ∧
      (∀ n : Int, .integer n ∈ exactDocument.numbers → n.natAbs ≤ 1 <<< 53) ∧
      ∃ back, (ofJson exactDocument).toJson = .ok back ∧
        exactDocument.Matched Json.Number.SameValue back := by
  have hfraction : (Double.ofDecimal false 15 (-1)).isFinite = true := by decide +kernel
  have hvalid : exactDocument.Valid :=
    ⟨(by decide : ["n", "a", "zero"].Nodup),
      ⟨⟨by decide, by decide⟩, ⟨by decide, by decide⟩, trivial⟩, hfraction, rfl, trivial⟩
  have hsmall : ∀ n : Int, .integer n ∈ exactDocument.numbers → n.natAbs ≤ 1 <<< 53 := by
    intro n hn
    simp only [exactDocument, Json.numbers, Json.membersNumbers, Json.itemsNumbers,
      List.cons_append, List.nil_append, List.mem_cons, Json.Number.integer.injEq, reduceCtorEq,
      List.not_mem_nil, or_false] at hn
    rcases hn with rfl | rfl <;> decide
  obtain ⟨back, hback, -, -, hsame⟩ := toJson_ofJson exactDocument hvalid
  exact ⟨hvalid, hsmall, back, hback, hsame hsmall⟩

end Value

end Conform

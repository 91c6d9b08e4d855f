import Conform.Json.Reader
import Conform.Proofs.Failure
import Conform.Proofs.Rounding
import Conform.Yaml.Resolve

/-!
# Numbers that are read

JSON holds whole numbers of 64 bits and finite doubles (`Json.Number.Valid`), and every number of a
text that is read as JSON is one of them (`Json.valid_parse`). Digits are gathered only while they
fit a 64-bit word. Where the word is scaled, products that are too large are refused, and quotients
cannot be too large because no power of ten is below one (`Json.isFinite_divideByTen`).

The numbers of YAML are whole numbers of 64 bits or doubles (`Yaml.inRange_resolveScalar`), and
those that are not finite are no numbers in a value.

The reader of JSON is followed rule by rule. What a rule says of all that is read by it is
`Json.Yields`, which goes through the steps of a rule by `Yields.bind`.
-/

namespace Conform

namespace Double

/-- The double nearest to an integer of 64 bits is finite. -/
theorem isFinite_ofInt {n : Int} (h : n.natAbs < 1 <<< 64) : (ofInt n).isFinite = true :=
  isFinite_ofQuotient_one _ h

/-- Turning the sign keeps a double finite. -/
theorem isFinite_neg {d : Double} (h : d.isFinite = true) : d.neg.isFinite = true := by
  cases d with
  | finite negative x => rfl
  | _ => cases h

end Double

namespace Json

/-- A number of JSON is finite as a double. -/
theorem Number.Valid.isFinite {n : Number} (h : n.Valid) :
    (Value.doubleOfNumber n).isFinite = true := by
  cases n with
  | integer n =>
    have hbounds : -9223372036854775808 ≤ n ∧ n < 18446744073709551616 := h
    exact Double.isFinite_ofInt (by omega)
  | float d => exact h

mutual

/-- The numbers in a document, in the order in which they stand there. -/
def numbers : Json → List Number
  | .null | .bool _ | .string _ => []
  | .number n => [n]
  | .array items => itemsNumbers items
  | .object members => membersNumbers members

/-- The numbers in the items of a list. -/
def itemsNumbers : List Json → List Number
  | [] => []
  | item :: rest => numbers item ++ itemsNumbers rest

/-- The numbers in the members of an object. -/
def membersNumbers : List (String × Json) → List Number
  | [] => []
  | (_, member) :: rest => numbers member ++ membersNumbers rest

end

/-- The numbers in a list are those of its items. -/
theorem mem_itemsNumbers {items : List Json} {n : Number} :
    n ∈ itemsNumbers items ↔ ∃ item ∈ items, n ∈ item.numbers := by
  induction items with
  | nil => simp [itemsNumbers]
  | cons item rest ih => simp [itemsNumbers, ih]

/-- The numbers in an object are those of its members. -/
theorem mem_membersNumbers {members : List (String × Json)} {n : Number} :
    n ∈ membersNumbers members ↔ ∃ m ∈ members, n ∈ m.2.numbers := by
  induction members with
  | nil => simp [membersNumbers]
  | cons m rest ih => simp [membersNumbers, ih]

/-- All numbers in the document are numbers that JSON holds. -/
def NumbersValid (document : Json) : Prop := ∀ n ∈ document.numbers, n.Valid

/-- The numbers in a list are valid exactly if those in its items are. -/
theorem numbersValid_array {items : List Json} :
    (array items).NumbersValid ↔ ∀ item ∈ items, item.NumbersValid := by
  simp only [NumbersValid, numbers, mem_itemsNumbers]
  exact ⟨fun h item hitem n hn => h n ⟨item, hitem, hn⟩,
    fun h n ⟨item, hitem, hn⟩ => h item hitem n hn⟩

/-- The numbers in an object are valid exactly if those in its members are. -/
theorem numbersValid_object {members : List (String × Json)} :
    (object members).NumbersValid ↔ ∀ m ∈ members, m.2.NumbersValid := by
  simp only [NumbersValid, numbers, mem_membersNumbers]
  exact ⟨fun h m hm n hn => h n ⟨m, hm, hn⟩, fun h n ⟨m, hm, hn⟩ => h m hm n hn⟩

/-! ## Arithmetic -/

/-- The digits that are gathered fit 64 bits. -/
theorem gatherDigits_lt {word : Nat} (h : word < 1 <<< 64) (count : Nat) (cs : List Char) :
    (gatherDigits word count cs).1 < 1 <<< 64 := by
  induction cs generalizing word count with
  | nil => exact h
  | cons c rest ih =>
    rw [gatherDigits]
    split
    · rename_i hnext
      exact ih hnext.2 (count + 1)
    · exact h

/-- A double divided by a power of ten is finite. -/
theorem isFinite_divMagnitude_powerOfTen (x : Magnitude) (places : Nat) :
    (Double.divMagnitude false x (powerOfTen places)).isFinite = true := by
  unfold powerOfTen
  cases hpower : Magnitude.round (Nat.pow 10 places <<< Magnitude.unitBits) 1 with
  | none =>
    -- In the place of what is too large stands zero, and nothing is divided by it.
    have hlog : (x.units <<< Magnitude.unitBits / 0).log2 < 2097 := by
      rw [Nat.div_zero]
      decide
    exact Double.isFinite_ofQuotient false hlog
  | some y =>
    have hone (k : Nat) : 1 <<< k ≤ Nat.pow 10 places <<< k := by
      rw [Nat.one_shiftLeft, Nat.shiftLeft_eq]
      exact Nat.le_mul_of_pos_left _ (Nat.pow_pos (by decide))
    have hunits : 1 <<< Magnitude.unitBits ≤ y.units :=
      Magnitude.shiftLeft_le_units (by decide) (hone Magnitude.unitBits) hpower
    exact Double.isFinite_divMagnitude false hunits

/-- One step of a division by powers of ten. -/
theorem divideByTen_succ (steps : Nat) (x : Magnitude) (places : Nat) :
    divideByTen (steps + 1) x places =
      match Double.divMagnitude false x (powerOfTen (min places 308)) with
      | .finite _ y =>
        if places ≤ 308 then .finite false y else divideByTen steps y (places - 308)
      | other => other := by
  -- The equations that `rw` would make come at the price of computing the power.
  delta divideByTen
  rfl

/-- A double divided by powers of ten one after another is finite. -/
theorem isFinite_divideByTen (steps : Nat) (x : Magnitude) (places : Nat) :
    (divideByTen steps x places).isFinite = true := by
  induction steps generalizing x places with
  | zero =>
    delta divideByTen
    rfl
  | succ steps ih =>
    have hstep := isFinite_divMagnitude_powerOfTen x (min places 308)
    rw [divideByTen_succ]
    split
    · split
      · rfl
      · exact ih _ _
    · exact hstep

/-- A word that is scaled is finite. -/
theorem isFinite_scaleWord {word : Nat} {exponent : Int} {d : Double}
    (h : scaleWord? word exponent = some d) : d.isFinite = true := by
  unfold scaleWord? at h
  split at h
  · split at h
    · obtain rfl := Option.some.inj h
      exact isFinite_divideByTen ..
    · split at h
      · split at h
        · obtain rfl := Option.some.inj h
          rfl
        · cases h
      · exact (Option.filter_eq_some_iff.1 h).2
  · cases h

/-- A finite double under a sign is a number of JSON. -/
theorem valid_withSign (negative : Bool) {d : Double} (h : d.isFinite = true) :
    (withSign negative d).Valid := by
  cases negative with
  | false => exact h
  | true => exact Double.isFinite_neg h

/-- Digits that fit 64 bits are a number of JSON. -/
theorem valid_wholeNumber (negative : Bool) {word : Nat} (h : word < 1 <<< 64) :
    (wholeNumber negative word).Valid := by
  unfold wholeNumber
  split
  · show -9223372036854775808 ≤ (word : Int) ∧ (word : Int) < 18446744073709551616
    omega
  · split
    · rename_i hword
      have hle : word ≤ 9223372036854775808 := hword.2
      show -9223372036854775808 ≤ -(word : Int) ∧ -(word : Int) < 18446744073709551616
      omega
    · exact valid_withSign true (Double.isFinite_ofQuotient_one false h)

/-! ## Rules -/

/-- Whatever is read has the property. -/
structure Yields {α : Type} (P : α → Prop) (scan : Scan (α × List Char)) : Prop where
  holds : ∀ a rest, scan = .ok (a, rest) → P a

section Yields

variable {α β : Type} {P : α → Prop}

/-- What stops reads nothing. -/
theorem yields_stop (fault : SyntaxFault) (rest : List Char) (bytes : Nat) :
    Yields P (stop fault rest bytes) :=
  ⟨nofun⟩

/-- What has been read is what there is. -/
theorem yields_ok {a : α} (h : P a) (rest : List Char) : Yields P (.ok (a, rest)) := by
  refine ⟨fun b rest hok => ?_⟩
  obtain ⟨rfl, rfl⟩ := Prod.mk.inj (Except.ok.inj hok)
  exact h

/-- After anything has been read there is what is read behind it. -/
theorem yields_bind {scan : Scan β} {next : β → Scan (α × List Char)}
    (h : ∀ b, scan = .ok b → Yields P (next b)) : Yields P (scan >>= next) := by
  refine ⟨fun a rest hok => ?_⟩
  obtain ⟨b, hb, hok⟩ := bind_eq_ok.1 hok
  exact (h b hb).holds a rest hok

/-- What is read behind something that has a property may make use of it. -/
theorem Yields.bind {Q : β → Prop} {scan : Scan (β × List Char)}
    {next : β × List Char → Scan (α × List Char)} (hscan : Yields Q scan)
    (h : ∀ b rest, Q b → Yields P (next (b, rest))) : Yields P (scan >>= next) :=
  yields_bind fun ⟨b, rest⟩ hb => h b rest (hscan.holds b rest hb)

end Yields

/-- Digits with an exponent are a number of JSON. -/
theorem yields_scaledNumber (negative : Bool) (word : Nat) (exponent : Int) (rest : List Char) :
    Yields Number.Valid (scaledNumber negative word exponent rest) := by
  unfold scaledNumber
  split
  · rename_i d hd
    exact yields_ok (valid_withSign negative (isFinite_scaleWord hd)) rest
  · exact yields_stop ..

/-- Digits are a number of JSON with an exponent behind them. -/
theorem yields_readExponentDigits (negative down : Bool) (word : Nat) (exponent : Int)
    (value : Nat) (cs : List Char) :
    Yields Number.Valid (readExponentDigits negative down word exponent value cs) := by
  induction cs generalizing value with
  | nil => exact yields_scaledNumber ..
  | cons c rest ih =>
    rw [readExponentDigits]
    split
    · dsimp only
      split
      · exact ih _
      · -- With so large an exponent the number is either out of range or zero.
        split
        · exact yields_stop ..
        · exact yields_ok (valid_withSign negative rfl) _
    · exact yields_scaledNumber ..

/-- So they are if an exponent may follow. -/
theorem yields_readScale (negative : Bool) (word : Nat) (exponent : Int) (cs : List Char) :
    Yields Number.Valid (readScale negative word exponent cs) := by
  have hdigits (down : Bool) (digits : List Char) : Yields Number.Valid
      (if digits.isEmpty then stop .endInValue [] 0
        else if startsWithDigit digits then
          readExponentDigits negative down word exponent 0 digits
        else stop .badNumber digits 1) := by
    split
    · exact yields_stop ..
    · split
      · exact yields_readExponentDigits ..
      · exact yields_stop ..
  have hexponent (rest : List Char) :
      Yields Number.Valid (readExponent negative word exponent rest) := by
    unfold readExponent
    exact hdigits _ _
  unfold readScale
  split
  · exact hexponent _
  · exact hexponent _
  · exact yields_scaledNumber ..

/-- So they are with a fraction. -/
theorem yields_readFraction (negative : Bool) (word : Nat) (exponent : Int) (cs : List Char) :
    Yields Number.Valid (readFraction negative word exponent cs) := by
  unfold readFraction
  split
  split
  · exact yields_readScale ..
  · split
    · exact yields_readScale ..
    · split
      · exact yields_stop ..
      · exact yields_stop ..

/-- So they are with whatever may follow. -/
theorem yields_readNumberEnd (negative : Bool) {word : Nat} (hword : word < 1 <<< 64)
    (dropped : Nat) (cs : List Char) :
    Yields Number.Valid (readNumberEnd negative word dropped cs) := by
  unfold readNumberEnd
  split
  · exact yields_readFraction ..
  · split
    · exact yields_readScale ..
    · exact yields_ok (valid_wholeNumber negative hword) _

/-- A number that is read is a number of JSON. -/
theorem yields_readNumber (negative : Bool) (cs : List Char) :
    Yields Number.Valid (readNumber negative cs) := by
  unfold readNumber
  split
  · exact yields_stop ..
  · split
    · exact yields_stop ..
    · exact yields_readNumberEnd negative (by decide) ..
  · rename_i c rest _
    split
    · exact yields_readNumberEnd negative (gatherDigits_lt (by decide) 0 (c :: rest)) ..
    · exact yields_stop ..

/-- The numbers in a list are valid if those in its items are. -/
theorem yields_readItems {item : List Char → Scan (Json × List Char)}
    (hitem : ∀ cs, Yields NumbersValid (item cs)) (rounds : Nat) (first : Bool) (done : List Json)
    (hdone : ∀ document ∈ done, document.NumbersValid) (cs : List Char) :
    Yields NumbersValid (readItems item rounds first done cs) := by
  -- The invariant is that what is done has only valid numbers, and each round adds one item to it.
  induction rounds generalizing first done cs with
  | zero => exact yields_stop ..
  | succ rounds ih =>
    have hnext (value : Json) (rest : List Char) (hvalue : value.NumbersValid) :
        Yields NumbersValid (readItems item rounds false (value :: done) rest) :=
      ih false _ (List.forall_mem_cons.2 ⟨hvalue, hdone⟩) rest
    rw [readItems]
    split
    · exact yields_stop ..
    · refine yields_ok (numbersValid_array.2 fun document h => hdone document ?_) _
      exact List.mem_reverse.1 h
    · split
      · exact (hitem _).bind hnext
      · split
        · split
          · exact yields_stop ..
          · exact (hitem _).bind hnext
        · exact yields_stop ..

/-- The numbers in an object are valid if those in its members are. -/
theorem yields_readMembers {item : List Char → Scan (Json × List Char)}
    (hitem : ∀ cs, Yields NumbersValid (item cs)) (bound rounds : Nat) (first : Bool)
    (done : List (String × Json)) (hdone : ∀ m ∈ done, m.2.NumbersValid) (cs : List Char) :
    Yields NumbersValid (readMembers bound item rounds first done cs) := by
  have hmember (rest : List Char) : Yields NumbersValid (readMember item rest) := by
    unfold readMember
    split
    · exact yields_stop ..
    · exact hitem _
    · exact yields_stop ..
  induction rounds generalizing first done cs with
  | zero => exact yields_stop ..
  | succ rounds ih =>
    rw [readMembers]
    split
    · exact yields_stop ..
    · refine yields_ok (numbersValid_object.2 fun m h => hdone m ?_) _
      exact List.mem_reverse.1 h
    · split
      · exact yields_stop ..
      · split
        · refine yields_bind fun ⟨name, rest⟩ _ => (hmember rest).bind fun value rest hvalue => ?_
          exact ih false _ (List.forall_mem_cons.2 ⟨hvalue, hdone⟩) rest
        · exact yields_stop ..
        · exact yields_stop ..
        · exact yields_stop ..

/-- The numbers in a value that is read are valid. -/
theorem yields_readValue (bound depth : Nat) (cs : List Char) :
    Yields NumbersValid (readValue bound depth cs) := by
  have hscalar {document : Json} (h : document.numbers = []) : document.NumbersValid := by
    intro n hn
    rw [h] at hn
    cases hn
  have hnumber (n : Number) (rest : List Char) (hn : n.Valid) :
      Yields NumbersValid (.ok (.number n, rest)) :=
    yields_ok (fun m hm => List.mem_singleton.1 hm ▸ hn) rest
  -- What may be opened gets less with each bracket, and the rest of the reader does not go deeper.
  induction depth generalizing cs with
  | zero =>
    rw [readValue]
    split
    · exact yields_stop ..
    · exact yields_bind fun _ _ => yields_ok (hscalar rfl) _
    · exact yields_bind fun _ _ => yields_ok (hscalar rfl) _
    · exact yields_bind fun _ _ => yields_ok (hscalar rfl) _
    · exact yields_bind fun _ _ => yields_ok (hscalar rfl) _
    · exact (yields_readNumber true _).bind hnumber
    · exact yields_stop ..
    · exact yields_stop ..
    · split
      · exact (yields_readNumber false _).bind hnumber
      · exact yields_stop ..
  | succ depth ih =>
    rw [readValue]
    split
    · exact yields_stop ..
    · exact yields_bind fun _ _ => yields_ok (hscalar rfl) _
    · exact yields_bind fun _ _ => yields_ok (hscalar rfl) _
    · exact yields_bind fun _ _ => yields_ok (hscalar rfl) _
    · exact yields_bind fun _ _ => yields_ok (hscalar rfl) _
    · exact (yields_readNumber true _).bind hnumber
    · exact yields_readItems ih bound true [] (List.forall_mem_nil _) _
    · exact yields_readMembers ih bound bound true [] (List.forall_mem_nil _) _
    · split
      · exact (yields_readNumber false _).bind hnumber
      · exact yields_stop ..

/-- The numbers in a text that is read as JSON are valid. -/
theorem numbersValid_parse {text : String} {document : Json} (h : parse text = .ok document) :
    document.NumbersValid := by
  obtain ⟨⟨value, rest⟩, hvalue, h⟩ := bind_eq_ok.1 (mapError_eq_ok.1 h)
  obtain ⟨-, -, h⟩ := bind_eq_ok.1 h
  obtain rfl := Except.ok.inj h
  exact (yields_readValue ..).holds value rest hvalue

end Json

namespace Yaml

/-- Whole numbers have 64 bits. -/
def Scalar.InRange : Scalar → Prop
  | .natural n | .negative n => n < 1 <<< 64
  | _ => True

/-- A whole number that is data has 64 bits. -/
theorem inRange_integerOfText {cs : List Char} {scalar : Scalar}
    (h : integerOfText? cs = some (.ok scalar)) : scalar.InRange := by
  have hwithin {wide narrow : Nat} {result : Nat → Scalar} {digits : List Char}
      (h : (readMagnitude? digits).bind (fun n =>
        if n ≤ narrow then some (Except.ok (result n))
        else if n ≤ wide then some (.error Fault.badScalar)
        else none) = some (.ok scalar))
      (hnarrow : narrow < 1 <<< 64) (hresult : ∀ n, n < 1 <<< 64 → (result n).InRange) :
      scalar.InRange := by
    obtain ⟨n, -, h⟩ := Option.bind_eq_some_iff.1 h
    split at h
    · obtain rfl := Except.ok.inj (Option.some.inj h)
      exact hresult n (by omega)
    · split at h
      · cases Option.some.inj h
      · cases h
  unfold integerOfText? at h
  dsimp only at h
  split at h
  · cases h
  · split at h
    · exact hwithin h (by decide) fun n hn => hn
    · exact hwithin h (by decide) fun n hn => hn
    · exact hwithin h (by decide) fun n hn => hn

/-- A plain scalar is data in range. -/
theorem inRange_resolvePlain {text : String} {scalar : Scalar}
    (h : resolvePlain text = .ok scalar) : scalar.InRange := by
  unfold resolvePlain at h
  dsimp only at h
  split at h
  · obtain rfl := Except.ok.inj h
    trivial
  · split at h
    · obtain rfl := Except.ok.inj h
      trivial
    · rename_i result _ hresult
      exact inRange_integerOfText (h ▸ hresult)
    · split at h
      · obtain rfl := Except.ok.inj h
        trivial
      · obtain rfl := Except.ok.inj h
        trivial

/-- A scalar is data in range, whatever its tag. -/
theorem inRange_resolveScalar {tag : Option Tag} {plain : Bool} {text : String} {scalar : Scalar}
    (h : resolveScalar tag plain text = .ok scalar) : scalar.InRange := by
  have huntagged (h : resolveUntagged plain text = .ok scalar) : scalar.InRange := by
    unfold resolveUntagged at h
    split at h
    · exact inRange_resolvePlain h
    · obtain rfl := Except.ok.inj h
      trivial
  unfold resolveScalar at h
  split at h
  · exact huntagged h
  · split at h
    · cases h
    · split at h
      · exact huntagged h
      · -- Of the core tags only that of whole numbers leaves anything to show.
        split at h
        · split at h
          · obtain rfl := Except.ok.inj h
            trivial
          · cases h
        · split at h
          · split at h
            · rename_i result hresult
              exact inRange_integerOfText (h ▸ hresult)
            · cases h
          · split at h
            · split at h
              · obtain rfl := Except.ok.inj h
                trivial
              · cases h
            · split at h
              · split at h
                · obtain rfl := Except.ok.inj h
                  trivial
                · cases h
              · obtain rfl := Except.ok.inj h
                trivial

end Yaml

end Conform

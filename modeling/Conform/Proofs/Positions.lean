import Conform.Text.Numeral
import Mathlib.Logic.Basic

/-!
# Numerals of positions

What reads as a position in a list are the decimal numerals of the numbers below `2^64`, with any
zeros in front of them and perhaps a plus sign in front of these (`readPosition?_eq_some`).

The reader stops as soon as its value is out of bounds. Digits that follow never bring a value down
(`le_ofDigitChars`), so it is the whole value that has to be within them (`readBounded_eq_ok`).
-/

namespace Conform.Text

/-! ## Digits -/

/-- The value of a digit is less than ten. -/
theorem toNat_sub_lt_ten {c : Char} (h : c.isDigit = true) : c.toNat - '0'.toNat < 10 := by
  have hhigh : c.toNat ≤ 57 := (Char.isDigit_iff_toNat.1 h).2
  show c.toNat - 48 < 10
  omega

/-- The digits of base ten are those from zero to nine. -/
theorem digitValue?_ten (c : Char) :
    digitValue? 10 c = if c.isDigit then some (c.toNat - '0'.toNat) else none := by
  have hdigit : c.isDigit = true ↔ '0' ≤ c ∧ c ≤ '9' := by
    rw [Char.isDigit_iff_toNat]
    exact Iff.rfl
  simp only [digitValue?, hdigit]
  split
  · rename_i h
    rw [Option.filter_some, if_pos (decide_eq_true (toNat_sub_lt_ten (hdigit.2 h)))]
  · -- The letters stand for ten and more.
    split
    · simp
    · split <;> simp

/-- Digits behind a number do not make it smaller. -/
theorem le_ofDigitChars (digits : List Char) (n : Nat) : n ≤ Nat.ofDigitChars 10 digits n := by
  induction digits generalizing n with
  | nil => exact Nat.le_refl n
  | cons c rest ih =>
    rw [Nat.ofDigitChars_cons]
    have := ih (10 * n + (c.toNat - '0'.toNat))
    omega

/-- Characters are read within a bound exactly if they are digits and their value is within it. -/
theorem readBounded_eq_ok {overflow : NumeralFault} {bound n : Nat} {digits : List Char} :
    readBounded overflow bound digits = .ok n ↔
      (∀ c ∈ digits, c.isDigit = true) ∧ Nat.ofDigitChars 10 digits 0 = n ∧ n ≤ bound := by
  -- On the way the value so far takes the place of zero.
  rw [readBounded]
  have ha : 0 ≤ bound := Nat.zero_le bound
  revert ha
  generalize 0 = a
  intro ha
  induction digits generalizing a with
  | nil =>
    constructor
    · rintro ⟨⟩
      exact ⟨fun _ hc => absurd hc List.not_mem_nil, rfl, ha⟩
    · rintro ⟨-, rfl, -⟩
      rfl
  | cons c rest ih =>
    rw [List.foldlM_cons, digitValue?_ten, Nat.ofDigitChars_cons, Nat.mul_comm 10 a,
      List.forall_mem_cons]
    by_cases hdigit : c.isDigit = true
    · rw [if_pos hdigit]
      simp only [hdigit, true_and]
      by_cases hvalue : a * 10 + (c.toNat - '0'.toNat) ≤ bound
      · rw [if_pos hvalue]
        exact ih _ hvalue
      · rw [if_neg hvalue]
        -- Out of bounds already, and the whole value is not below.
        refine ⟨(nomatch ·), ?_⟩
        rintro ⟨-, rfl, hn⟩
        exact absurd (Nat.le_trans (le_ofDigitChars rest _) hn) hvalue
    · rw [if_neg hdigit]
      exact ⟨(nomatch ·), fun h => absurd h.1.1 hdigit⟩

/-- A digit is the numeral of its value. -/
theorem toDigits_digit {c : Char} (h : c.isDigit = true) :
    Nat.toDigits 10 (c.toNat - '0'.toNat) = [c] := by
  have hlt := toNat_sub_lt_ten h
  rw [Nat.toDigits_of_lt_base hlt, List.singleton_inj, ← Char.toNat_inj,
    Nat.toNat_digitChar_of_lt_ten hlt]
  exact Nat.add_sub_cancel' (Char.isDigit_iff_toNat.1 h).1

/-- Digits behind the numeral of a number other than zero make a numeral. -/
theorem toDigits_append {digits : List Char} (h : ∀ c ∈ digits, c.isDigit = true) {n : Nat}
    (hn : 0 < n) :
    Nat.toDigits 10 n ++ digits = Nat.toDigits 10 (Nat.ofDigitChars 10 digits n) := by
  induction digits generalizing n with
  | nil => exact List.append_nil _
  | cons c rest ih =>
    obtain ⟨hdigit, hrest⟩ := List.forall_mem_cons.1 h
    calc Nat.toDigits 10 n ++ c :: rest
        = Nat.toDigits 10 n ++ Nat.toDigits 10 (c.toNat - '0'.toNat) ++ rest := by
          rw [toDigits_digit hdigit, List.append_assoc, List.singleton_append]
      _ = Nat.toDigits 10 (10 * n + (c.toNat - '0'.toNat)) ++ rest := by
          rw [Nat.toDigits_append_toDigits (by decide) hn (toNat_sub_lt_ten hdigit)]
      _ = Nat.toDigits 10 (Nat.ofDigitChars 10 (c :: rest) n) := by
          rw [ih hrest (by omega), Nat.ofDigitChars_cons]

/-- Digits are zeros in front of the numeral of their value. -/
theorem digits_eq {digits : List Char} (h : ∀ c ∈ digits, c.isDigit = true) (hne : digits ≠ []) :
    ∃ zeros, digits =
      List.replicate zeros '0' ++ Nat.toDigits 10 (Nat.ofDigitChars 10 digits 0) := by
  induction digits with
  | nil => exact absurd rfl hne
  | cons c rest ih =>
    obtain ⟨hdigit, hrest⟩ := List.forall_mem_cons.1 h
    have hvalue : Nat.ofDigitChars 10 (c :: rest) 0 =
        Nat.ofDigitChars 10 rest (c.toNat - '0'.toNat) := by
      rw [Nat.ofDigitChars_cons, Nat.mul_zero, Nat.zero_add]
    rw [hvalue]
    -- Zeros in front count for nothing, and the first other digit is the first of the numeral.
    by_cases hzero : c = '0'
    · subst hzero
      rcases eq_or_ne rest [] with rfl | hrestne
      · exact ⟨0, rfl⟩
      · obtain ⟨zeros, heq⟩ := ih hrest hrestne
        exact ⟨zeros + 1, congrArg ('0' :: ·) heq⟩
    · have hpos : 0 < c.toNat - '0'.toNat := by
        have hlow := (Char.isDigit_iff_toNat.1 hdigit).1
        have hne := mt Char.toNat_inj.1 hzero
        omega
      refine ⟨0, ?_⟩
      rw [← toDigits_append hrest hpos, toDigits_digit hdigit]
      rfl

/-- One or more digits have a value exactly if they are zeros in front of its numeral. -/
theorem digits_iff {digits : List Char} {n : Nat} :
    (digits ≠ [] ∧ (∀ c ∈ digits, c.isDigit = true) ∧ Nat.ofDigitChars 10 digits 0 = n) ↔
      ∃ zeros, digits = List.replicate zeros '0' ++ Nat.toDigits 10 n := by
  constructor
  · rintro ⟨hne, hdigits, rfl⟩
    exact digits_eq hdigits hne
  · rintro ⟨zeros, rfl⟩
    refine ⟨List.append_ne_nil_of_right_ne_nil _ Nat.toDigits_ne_nil, fun c hc => ?_, ?_⟩
    · rcases List.mem_append.1 hc with hzero | hdigit
      · rw [List.eq_of_mem_replicate hzero]
        rfl
      · exact Nat.isDigit_of_mem_toDigits (by decide) (by decide) hdigit
    · rw [Nat.ofDigitChars_append, Nat.ofDigitChars_replicate_zero, Nat.mul_zero,
        Nat.ofDigitChars_ten_toDigits]

/-- One or more characters are read within a bound exactly if they are zeros in front of the numeral
of a number that is within it. -/
theorem readBounded_iff {overflow : NumeralFault} {bound n : Nat} {digits : List Char} :
    (digits ≠ [] ∧ readBounded overflow bound digits = .ok n) ↔
      n ≤ bound ∧ ∃ zeros, digits = List.replicate zeros '0' ++ Nat.toDigits 10 n := by
  rw [readBounded_eq_ok, ← digits_iff]
  constructor
  · rintro ⟨hne, hdigits, hn, hbound⟩
    exact ⟨hbound, hne, hdigits, hn⟩
  · rintro ⟨hbound, hne, hdigits, hn⟩
    exact ⟨hne, hdigits, hn, hbound⟩

/-! ## Signs -/

/-- What is read as an integer is read. -/
theorem map_ofNat_eq_ok {r : Except NumeralFault Nat} {i : Int} :
    r.map Int.ofNat = .ok i ↔ ∃ n, r = .ok n ∧ Int.ofNat n = i := by
  cases r <;> simp [Except.map]

/-- A number that is not below zero is read from one or more digits, behind a plus sign or
without. -/
theorem readInteger_zero_eq_ok {high : Nat} {text : String} {i : Int} :
    readInteger 0 high text = .ok i ↔
      ∃ digits, (text.toList = digits ∨ text.toList = '+' :: digits) ∧ digits ≠ [] ∧
        (readBounded .tooLarge high digits).map Int.ofNat = .ok i := by
  -- A sign is no digit.
  have hsign {c : Char} (hc : c.isDigit = false) (rest : List Char) :
      (readBounded .tooLarge high (c :: rest)).map Int.ofNat ≠ .ok i := by
    intro h
    obtain ⟨n, hread, -⟩ := map_ofNat_eq_ok.1 h
    have hdigit := (readBounded_eq_ok.1 hread).1 c List.mem_cons_self
    exact absurd hdigit (Bool.eq_false_iff.1 hc)
  unfold readInteger
  generalize text.toList = cs
  split
  · simp
  · -- A plus sign alone.
    refine ⟨(nomatch ·), ?_⟩
    rintro ⟨digits, rfl | h, hne, hread⟩
    · exact absurd hread (hsign rfl [])
    · exact absurd (List.cons.inj h).2.symm hne
  · -- A minus sign alone.
    refine ⟨(nomatch ·), ?_⟩
    rintro ⟨digits, rfl | h, -, hread⟩
    · exact absurd hread (hsign rfl [])
    · cases h
  · -- A plus sign and more.
    rename_i digits hne
    refine ⟨fun h => ⟨digits, .inr rfl, hne, h⟩, ?_⟩
    rintro ⟨digits, rfl | h, -, hread⟩
    · exact absurd hread (hsign rfl _)
    · rwa [(List.cons.inj h).2]
  · -- A minus sign and more.
    rw [if_pos rfl]
    refine ⟨(nomatch ·), ?_⟩
    rintro ⟨digits, rfl | h, -, hread⟩
    · exact absurd hread (hsign rfl _)
    · cases h
  · -- No sign.
    rename_i hnil _ _ hplus _
    refine ⟨fun h => ⟨cs, .inl rfl, hnil, h⟩, ?_⟩
    rintro ⟨digits, rfl | h, -, hread⟩
    · exact hread
    · exact absurd h (hplus digits)

/-- The text is a numeral of the number, and the number one that positions can have. -/
def IsPosition (text : String) (n : Nat) : Prop :=
  n < 1 <<< 64 ∧ ∃ sign zeros, (sign = "" ∨ sign = "+") ∧
    text = sign ++ String.ofList (List.replicate zeros '0') ++ toString n

/-- The texts that read as a position are the numerals of the numbers that positions can have. -/
theorem readPosition?_eq_some {text : String} {n : Nat} :
    readPosition? text = some n ↔ IsPosition text n := by
  have hinteger : readPosition? text = some n ↔
      ∃ i, readInteger 0 ((1 <<< 64) - 1) text = .ok i ∧ i.toNat = n := by
    rw [readPosition?]
    cases readInteger 0 ((1 <<< 64) - 1) text <;> simp
  -- The reader is given the greatest position, not the first number that is none.
  have hbound : n ≤ (1 <<< 64) - 1 ↔ n < 1 <<< 64 := Nat.le_sub_one_iff_lt (by decide)
  simp only [hinteger, readInteger_zero_eq_ok, map_ofNat_eq_ok]
  constructor
  · rintro ⟨_, ⟨digits, htext, hne, m, hread, rfl⟩, rfl⟩
    obtain ⟨hn, zeros, rfl⟩ := readBounded_iff.1 ⟨hne, hread⟩
    rcases htext with htext | htext
    · refine ⟨hbound.1 hn, "", zeros, .inl rfl, String.toList_inj.1 ?_⟩
      simpa using htext
    · refine ⟨hbound.1 hn, "+", zeros, .inr rfl, String.toList_inj.1 ?_⟩
      simpa using htext
  · rintro ⟨hn, sign, zeros, hsign, rfl⟩
    obtain ⟨hne, hread⟩ := readBounded_iff.2 ⟨hbound.2 hn, zeros, rfl⟩
    refine ⟨n, ⟨_, ?_, hne, n, hread, rfl⟩, rfl⟩
    rcases hsign with rfl | rfl
    · exact .inl (by simp)
    · exact .inr (by simp)

end Conform.Text

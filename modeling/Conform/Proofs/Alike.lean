import Conform.Proofs.Equality

/-!
# Alike verdicts

Verdicts are alike (`Verdict.Alike`) if both have equal results or both are failures, and if their
trees are the same but for the order of entries. Every way to make a verdict keeps this: the
verdicts of items, of matched entries, of the members of a union and of the value of a record's
entry make alike verdicts if they are alike themselves (`ofItems_alike`, `ofEntries_alike` and so
on), and a check of single values has alike answers for alike values (`LeafCheck.check_alike`).

A parser can tell equal values apart, if it looks at the order of entries or at the sign of zero.
`Parser.RespectsEqual` says that it does not. The builtin parsers respect equality
(`respectsEqual_of_builtins`).
-/

namespace Conform

/-! ## Alike outcomes, trees and answers -/

/-- Both are results, which are equal, or both are failures. -/
inductive Outcome.Alike : Outcome → Outcome → Prop
  | valid {r s : Value} (h : r.equal s = true) : Alike (.valid r) (.valid s)
  | invalid : Alike .invalid .invalid

/-- Alike outcomes are both results or both failures. -/
theorem Outcome.Alike.isValid_eq {o o' : Outcome} (h : o.Alike o') : o.isValid = o'.isValid := by
  cases h <;> rfl

/-- Alike outcomes have equal values. -/
theorem Outcome.Alike.valueOrAbsent_equal {o o' : Outcome} (h : o.Alike o') :
    o.valueOrAbsent.equal o'.valueOrAbsent = true := by
  cases h with
  | valid h => exact h
  | invalid => rfl

/-- The trees are the same but for the order of entries. -/
inductive Validation.Alike : Validation → Validation → Prop
  | clean : Alike .clean .clean
  | leaf (error : String) : Alike (.leaf error) (.leaf error)
  | list {items others : List Validation} (h : List.Forall₂ Alike items others) :
    Alike (.list items) (.list others)
  | map {entries arranged others : List (String × Validation)}
    (same : List.Forall₂ (Entries.SameKey Alike) entries arranged)
    (perm : arranged.Perm others) : Alike (.map entries) (.map others)

/-- Matched trees make alike trees. -/
theorem Validation.alike_map {entries others : List (String × Validation)}
    (h : Entries.Matched Validation.Alike entries others) : Alike (.map entries) (.map others) := by
  obtain ⟨same, perm⟩ := h
  exact .map same perm

/-- Both answers are values, which are equal, or both are the same error. -/
inductive AlikeAnswers : Except String Value → Except String Value → Prop
  | ok {r s : Value} (h : r.equal s = true) : AlikeAnswers (.ok r) (.ok s)
  | error (error : String) : AlikeAnswers (.error error) (.error error)

/-- The parser takes equal values to equal values or to the same error. -/
def Parser.RespectsEqual (p : Parser) : Prop :=
  ∀ a b : Value, a.Alike b → AlikeAnswers (p.parse a) (p.parse b)

namespace Verdict

/-- The verdicts have alike outcomes and alike trees. -/
structure Alike (v w : Verdict) : Prop where
  outcome : v.outcome.Alike w.outcome
  validation : v.validation.Alike w.validation

/-- Passed checks are alike if their values are equal. -/
theorem pass_alike {r s : Value} (h : r.equal s = true) : (pass r).Alike (pass s) :=
  ⟨.valid h, .clean⟩

/-- Checks that have failed with the same error are alike. -/
theorem fail_alike (error : String) : (fail error).Alike (fail error) := ⟨.invalid, .leaf error⟩

/-- Alike answers make alike verdicts. -/
theorem ofCheck_alike {x y : Except String Value} (h : AlikeAnswers x y) :
    (ofCheck x).Alike (ofCheck y) := by
  cases h with
  | ok h => exact pass_alike h
  | error error => exact fail_alike error

/-- Modifiers treat alike values alike. -/
theorem ofModifier_alike (accepted : Bool) {a b : Value} (h : a.Alike b) :
    (ofModifier accepted a).Alike (ofModifier accepted b) := by
  cases accepted with
  | true => exact pass_alike h.equal
  | false =>
    unfold ofModifier
    rw [h.toText_eq]
    exact fail_alike _

/-- Alike values are of the wrong shape alike. -/
theorem wrongShape_alike {a b : Value} (h : a.Alike b) (shape : String) :
    (wrongShape a shape).Alike (wrongShape b shape) := by
  unfold wrongShape
  rw [h.rel.typeName_eq]
  exact fail_alike _

/-- Alike verdicts leave the same messages at their own place. -/
theorem Alike.ownMessages_eq {v w : Verdict} (h : v.Alike w) (path : String) :
    v.ownMessages path = w.ownMessages path := by
  obtain ⟨o, tree⟩ := v
  obtain ⟨o', tree'⟩ := w
  obtain ⟨-, htree⟩ := h
  cases htree <;> rfl

/-! ## Making verdicts of alike verdicts -/

/-- A list of alike items is alike. -/
theorem ofItems_alike {items others : List Verdict} (h : List.Forall₂ Alike items others) :
    (ofItems items).Alike (ofItems others) := by
  refine ⟨?_, .list (List.rel_map (fun _ _ hv => hv.validation) h)⟩
  have hall : items.all (·.outcome.isValid) = others.all (·.outcome.isValid) :=
    forall₂_all_eq h fun _ _ hv => hv.outcome.isValid_eq
  rw [outcome_ofItems, outcome_ofItems, hall]
  split
  · refine .valid (Value.equalItems_iff.2 ?_)
    exact List.rel_map (fun _ _ hv => hv.outcome.valueOrAbsent_equal) h
  · exact .invalid

/-- An object of alike entries is alike, in whatever order they are. -/
theorem ofEntries_alike {entries others : List (String × Verdict)}
    (h : Entries.Matched Alike entries others) (hothers : Entries.Distinct others) :
    (ofEntries entries).Alike (ofEntries others) := by
  constructor
  · have hall : entries.all (·.2.outcome.isValid) = others.all (·.2.outcome.isValid) :=
      h.all_eq fun _ _ ⟨_, hv⟩ => hv.outcome.isValid_eq
    have hvalues : Entries.Matched (fun a b => a.equal b = true)
        (entries.map fun e => (e.1, e.2.outcome.valueOrAbsent))
        (others.map fun o => (o.1, o.2.outcome.valueOrAbsent)) :=
      h.map fun _ _ ⟨key, hv⟩ => .intro key hv.outcome.valueOrAbsent_equal
    rw [outcome_ofEntries, outcome_ofEntries, hall]
    split
    · refine .valid (Value.equal_object (hvalues.filter fun e o ⟨_, hequal⟩ => ?_) ?_)
      · rw [Value.isUndefined_eq_of_equal hequal]
      · exact distinct_definedEntries (Entries.distinct_map hothers _)
    · exact .invalid
  · exact Validation.alike_map (h.map fun _ _ ⟨key, hv⟩ => .intro key hv.validation)

/-- A union of members that are alike one by one is alike: the same member is the first to pass. -/
theorem ofMembers_alike {members others : List Verdict} (h : List.Forall₂ Alike members others) :
    (ofMembers members).Alike (ofMembers others) := by
  unfold ofMembers
  induction h with
  | nil => exact fail_alike _
  | @cons v w members others hv _ ih =>
    obtain ⟨o, tree⟩ := v
    obtain ⟨o', tree'⟩ := w
    cases hv.outcome with
    | valid hequal => exact pass_alike hequal
    | invalid => exact ih

/-- Under the same key, entries of a record with alike values are alike. -/
theorem ofKeyed_alike {key v w : Verdict} (hkey : key.IsPlain) (h : v.Alike w) :
    (ofKeyed key v).Alike (ofKeyed key w) := by
  rcases hkey with ⟨value, rfl⟩ | ⟨error, rfl⟩
  · exact h
  · obtain ⟨o, tree⟩ := v
    obtain ⟨o', tree'⟩ := w
    obtain ⟨-, htree⟩ := h
    -- Only a clean tree gives way to the error of the key, and it is alike clean trees only.
    cases htree with
    | clean => exact fail_alike error
    | leaf e => exact ⟨.invalid, .leaf e⟩
    | list h => exact ⟨.invalid, .list h⟩
    | map same perm => exact ⟨.invalid, .map same perm⟩

end Verdict

/-! ## Checks of single values -/

/-- A primitive type takes both of two alike values or neither. -/
theorem Primitive.accepts_congr (p : Primitive) {a b : Value} (h : a.Alike b) :
    p.accepts a = p.accepts b := by
  cases h.rel <;> cases p <;> rfl

/-- A literal is both of two alike values or neither. -/
theorem Literal.accepts_congr (l : Literal) {a b : Value} (h : a.Alike b) :
    l.accepts a = l.accepts b := by
  cases h.rel with
  | number heq =>
    cases l with
    | number d => exact Double.eq_congr heq d
    | string s => rfl
  | _ => cases l <;> rfl

/-- A check of single values has alike answers for alike values, if it does so as a parser. -/
theorem LeafCheck.check_alike {check : LeafCheck} {a b : Value} (h : a.Alike b)
    (hparser : ∀ p, check = .parser p → p.RespectsEqual) :
    AlikeAnswers (check.check a) (check.check b) := by
  cases check with
  | primitive p =>
    simp only [LeafCheck.check, p.accepts_congr h, h.toText_eq]
    split
    · exact .ok h.equal
    · exact .error _
  | options literals =>
    have hany : literals.any (·.accepts a) = literals.any (·.accepts b) := by
      simp only [fun l : Literal => l.accepts_congr h]
    simp only [LeafCheck.check, hany, h.toText_eq]
    split
    · exact .ok h.equal
    · exact .error _
  | parser p => exact hparser p rfl a b h

/-! ## Parsers that respect equality -/

namespace Parser

/-- Alike values are refused with the same error. -/
theorem refusal_congr {a b : Value} (h : a.Alike b) (expected : String) :
    refusal a expected = refusal b expected := by
  rw [refusal, refusal, h.toText_eq]

/-- Equal numbers are both whole or both not. -/
theorem respectsEqual_integer : integer.RespectsEqual := by
  intro a b h
  have hrefusal := refusal_congr h "an integer."
  cases h.rel with
  | number heq =>
    simp only [integer, ofFunction, Double.isIntegral_congr heq, hrefusal]
    split
    · exact .ok heq
    · exact .error _
  | _ =>
    simp only [integer, ofFunction, hrefusal]
    exact .error _

/-- A parser of strings respects equality, if its answers equal themselves. -/
theorem respectsEqual_of_string {p : Parser}
    (hstring : ∀ s r, p.parse (.string s) = .ok r → r.equal r = true)
    (hother : ∀ a : Value, a.string? = none → p.parse a = .error (refusal a "a string.")) :
    p.RespectsEqual := by
  intro a b h
  have hkinds : (∃ s, a = .string s ∧ b = .string s) ∨ a.string? = none ∧ b.string? = none := by
    cases h.rel with
    | string s => exact .inl ⟨s, rfl, rfl⟩
    | _ => exact .inr ⟨rfl, rfl⟩
  rcases hkinds with ⟨s, rfl, rfl⟩ | ⟨ha, hb⟩
  · cases hanswer : p.parse (.string s) with
    | ok r => exact .ok (hstring s r hanswer)
    | error e => exact .error e
  · rw [hother a ha, hother b hb, refusal_congr h]
    exact .error _

/-- A text with more than white space is answered with itself. -/
theorem respectsEqual_nonEmptyString : nonEmptyString.RespectsEqual := by
  refine respectsEqual_of_string (fun s r h => ?_) fun a ha => ?_
  · obtain ⟨t, -, -, rfl⟩ := nonEmptyString_eq_ok.1 h
    exact beq_self_eq_true t
  · cases a with
    | string s => cases ha
    | _ => rfl

/-- A trimmed text equals itself. -/
theorem respectsEqual_trimmedString : trimmedString.RespectsEqual := by
  refine respectsEqual_of_string (fun s r h => ?_) fun a ha => ?_
  · obtain ⟨t, -, rfl⟩ := trimmedString_eq_ok.1 h
    exact beq_self_eq_true (Text.trim t)
  · cases a with
    | string s => cases ha
    | _ => rfl

/-- The number that a text is read to is finite, and so equals itself. -/
theorem respectsEqual_numericString : numericString.RespectsEqual := by
  refine respectsEqual_of_string (fun s r h => ?_) fun a ha => ?_
  · obtain ⟨t, d, hread, -, rfl⟩ := numericString_eq_ok.1 h
    exact Double.eq_self_of_isFinite (Option.filter_eq_some_iff.1 hread).2
  · cases a with
    | string s => cases ha
    | _ => rfl

/-- The parsers of the registry of builtins respect equality. -/
theorem respectsEqual_of_builtins {name : String} {p : Parser}
    (hp : Registry.builtins.get? name = some p) : p.RespectsEqual := by
  unfold RespectsEqual
  rcases Registry.parse_of_builtins hp with h | h | h | h <;> rw [h]
  · exact respectsEqual_integer
  · exact respectsEqual_nonEmptyString
  · exact respectsEqual_trimmedString
  · exact respectsEqual_numericString

end Parser

end Conform

import Conform.Double.Read
import Conform.Entries
import Conform.Text.Class
import Conform.Text.Quoted
import Conform.Value.Basic

/-!
# Parsers

A parser is a custom check: it takes a value to the value that stands for it in the result, or to
the text of an error. A registry gives parsers names, by which schema documents refer to them; a
parser that has no label when it is registered takes its name as its label.
-/

namespace Conform

/-- A custom check, with a label to show it by. -/
structure Parser where
  label : Option String
  parse : Value → Except String Value

namespace Parser

/-- A parser without a label. -/
def ofFunction (parse : Value → Except String Value) : Parser := ⟨none, parse⟩

/-- The parser under another label. -/
def withLabel (label : String) (p : Parser) : Parser := { p with label := some label }

/-- The parser as it is stored under a name, which is its label if it has none. -/
def underName (name : String) (p : Parser) : Parser := ⟨some (p.label.getD name), p.parse⟩

/-- A parser that has a label is stored as it is. -/
theorem underName_of_label {p : Parser} (h : p.label.isSome = true) (name : String) :
    p.underName name = p := by
  obtain ⟨label, hlabel⟩ := Option.isSome_iff_exists.1 h
  rw [underName, hlabel, Option.getD_some, ← hlabel]

/-- How a parser is shown by itself. -/
def describe (p : Parser) : String :=
  "Parser(" ++ Text.quoted (p.label.getD "<anonymous>") ++ ")"

/-! ## Parsers that every registry of builtins has -/

/-- What is said of a value that is not what a parser takes. -/
def refusal (input : Value) (expected : String) : String :=
  "\"" ++ input.toText ++ "\" is not " ++ expected

/-- Accepts a number without a fraction. -/
def integer : Parser := ofFunction fun
  | .number d =>
    if d.isIntegral then .ok (.number d) else .error (refusal (.number d) "an integer.")
  | input => .error (refusal input "an integer.")

/-- Accepts a string that has more than white space in it. -/
def nonEmptyString : Parser := ofFunction fun
  | .string s => if (Text.trim s).isEmpty then .error "String is empty." else .ok (.string s)
  | input => .error (refusal input "a string.")

/-- Takes a string to the same without the white space around it. -/
def trimmedString : Parser := ofFunction fun
  | .string s => .ok (.string (Text.trim s))
  | input => .error (refusal input "a string.")

/-- Takes the text of a finite number, white space around it allowed, to the number. -/
def numericString : Parser := ofFunction fun
  | .string s =>
    match (Double.ofText? (Text.trim s)).filter Double.isFinite with
    | some d => .ok (.number d)
    | none => .error (refusal (.string s) "a numeric string.")
  | input => .error (refusal input "a string.")

/-- The answer of the parser of whole numbers is the number that it takes. -/
theorem integer_eq_ok {input r : Value} :
    integer.parse input = .ok r ↔ ∃ d, d.isIntegral = true ∧ input = .number d ∧ r = .number d := by
  constructor
  · intro h
    cases input with
    | number d =>
      simp only [integer, ofFunction] at h
      split at h
      · rename_i hd
        exact ⟨d, hd, rfl, (Except.ok.inj h).symm⟩
      · cases h
    | _ => cases h
  · rintro ⟨d, hd, rfl, rfl⟩
    simp only [integer, ofFunction, if_pos hd]

/-- The answer of the parser of texts that are not empty is the text that it takes. -/
theorem nonEmptyString_eq_ok {input r : Value} :
    nonEmptyString.parse input = .ok r ↔
      ∃ s, ¬ (Text.trim s).isEmpty = true ∧ input = .string s ∧ r = .string s := by
  constructor
  · intro h
    cases input with
    | string s =>
      simp only [nonEmptyString, ofFunction] at h
      split at h
      · cases h
      · rename_i hs
        exact ⟨s, hs, rfl, (Except.ok.inj h).symm⟩
    | _ => cases h
  · rintro ⟨s, hs, rfl, rfl⟩
    simp only [nonEmptyString, ofFunction, if_neg hs]

/-- The answer of the parser that trims is the text that it takes, trimmed. -/
theorem trimmedString_eq_ok {input r : Value} :
    trimmedString.parse input = .ok r ↔ ∃ s, input = .string s ∧ r = .string (Text.trim s) := by
  constructor
  · intro h
    cases input with
    | string s => exact ⟨s, rfl, (Except.ok.inj h).symm⟩
    | _ => cases h
  · rintro ⟨s, rfl, rfl⟩
    rfl

/-- The answer of the parser that reads is the finite number that the text stands for. -/
theorem numericString_eq_ok {input r : Value} :
    numericString.parse input = .ok r ↔
      ∃ s d, (Double.ofText? (Text.trim s)).filter Double.isFinite = some d ∧ input = .string s ∧
        r = .number d := by
  constructor
  · intro h
    cases input with
    | string s =>
      simp only [numericString, ofFunction] at h
      split at h
      · rename_i d hd
        exact ⟨s, d, hd, rfl, (Except.ok.inj h).symm⟩
      · cases h
    | _ => cases h
  · rintro ⟨s, d, hd, rfl, rfl⟩
    simp only [numericString, ofFunction, hd]

/-- The parser of whole numbers quotes what it does not take. -/
theorem error_integer {input : Value} {error : String} (h : integer.parse input = .error error) :
    error = refusal input "an integer." := by
  cases input with
  | number d =>
    simp only [integer, ofFunction] at h
    split at h
    · cases h
    · exact (Except.error.inj h).symm
  | _ => exact (Except.error.inj h).symm

/-- The parser of texts that are not empty quotes what is no text. -/
theorem error_nonEmptyString {input : Value} {error : String}
    (h : nonEmptyString.parse input = .error error) :
    error = "String is empty." ∨ error = refusal input "a string." := by
  cases input with
  | string s =>
    simp only [nonEmptyString, ofFunction] at h
    split at h
    · exact .inl (Except.error.inj h).symm
    · cases h
  | _ => exact .inr (Except.error.inj h).symm

/-- The parser that trims quotes what is no text. -/
theorem error_trimmedString {input : Value} {error : String}
    (h : trimmedString.parse input = .error error) : error = refusal input "a string." := by
  cases input with
  | string s => cases h
  | _ => exact (Except.error.inj h).symm

/-- The parser that reads quotes what is no text and what is no text of a finite number. -/
theorem error_numericString {input : Value} {error : String}
    (h : numericString.parse input = .error error) :
    error = refusal input "a numeric string." ∨ error = refusal input "a string." := by
  cases input with
  | string s =>
    simp only [numericString, ofFunction] at h
    split at h
    · cases h
    · exact .inl (Except.error.inj h).symm
  | _ => exact .inr (Except.error.inj h).symm

end Parser

/-- Parsers by name. -/
structure Registry where
  parsers : List (String × Parser)

namespace Registry

/-- No parsers. -/
def empty : Registry := ⟨[]⟩

/-- Adds a parser, or replaces the one of that name. -/
def register (name : String) (p : Parser) (r : Registry) : Registry :=
  ⟨Entries.insert name (if p.label.isSome then p else p.withLabel name) r.parsers⟩

/-- The parser of a name. -/
def get? (name : String) (r : Registry) : Option Parser := Entries.get? name r.parsers

/-- The names in ascending order. -/
def names (r : Registry) : List String := (Entries.keys r.parsers).mergeSort

/-- A parser is put under its name as it is stored there. -/
theorem register_eq (name : String) (p : Parser) (r : Registry) :
    r.register name p = ⟨Entries.insert name (p.underName name) r.parsers⟩ := by
  obtain ⟨label, parse⟩ := p
  cases label <;> rfl

/-- After a parser is registered its name has it, and every other name has what it had. -/
theorem get?_register (name other : String) (p : Parser) (r : Registry) :
    (r.register name p).get? other =
      if name = other then some (p.underName name) else r.get? other := by
  rw [register_eq]
  exact Entries.get?_insert ..

/-- A name is listed exactly if there is a parser under it. -/
theorem mem_names_iff (r : Registry) (name : String) :
    name ∈ r.names ↔ (r.get? name).isSome = true := by
  have hsorted : name ∈ r.names ↔ name ∈ Entries.keys r.parsers :=
    (List.mergeSort_perm _ _).mem_iff
  rw [hsorted]
  exact (Entries.get?_isSome name r.parsers).symm

/-- The builtin parsers. -/
def builtins : Registry :=
  empty
    |>.register "integer" .integer
    |>.register "non_empty_string" .nonEmptyString
    |>.register "trimmed_string" .trimmedString
    |>.register "numeric_string" .numericString

/-- Under its label, a builtin parser answers as one of the four does. -/
theorem parse_of_builtins {name : String} {p : Parser} (h : builtins.get? name = some p) :
    p.parse = Parser.integer.parse ∨ p.parse = Parser.nonEmptyString.parse ∨
      p.parse = Parser.trimmedString.parse ∨ p.parse = Parser.numericString.parse := by
  have hmem : (name, p) ∈ [("integer", Parser.integer.withLabel "integer"),
      ("non_empty_string", Parser.nonEmptyString.withLabel "non_empty_string"),
      ("trimmed_string", Parser.trimmedString.withLabel "trimmed_string"),
      ("numeric_string", Parser.numericString.withLabel "numeric_string")] := Entries.mem_of_get? h
  simp only [List.mem_cons, List.not_mem_nil, or_false, Prod.mk.injEq] at hmem
  rcases hmem with ⟨-, rfl⟩ | ⟨-, rfl⟩ | ⟨-, rfl⟩ | ⟨-, rfl⟩
  · exact .inl rfl
  · exact .inr (.inl rfl)
  · exact .inr (.inr (.inl rfl))
  · exact .inr (.inr (.inr rfl))

/-- A builtin parser says of a text that it is empty, or quotes what it does not take. -/
theorem error_of_builtins {name : String} {p : Parser} (hp : builtins.get? name = some p)
    {input : Value} {error : String} (h : p.parse input = .error error) :
    error = "String is empty." ∨
      ∃ expected ∈ ["an integer.", "a string.", "a numeric string."],
        error = Parser.refusal input expected := by
  rcases parse_of_builtins hp with hparse | hparse | hparse | hparse <;> rw [hparse] at h
  · exact .inr ⟨_, by decide, Parser.error_integer h⟩
  · exact (Parser.error_nonEmptyString h).imp id fun h => ⟨_, by decide, h⟩
  · exact .inr ⟨_, by decide, Parser.error_trimmedString h⟩
  · rcases Parser.error_numericString h with h | h
    · exact .inr ⟨_, by decide, h⟩
    · exact .inr ⟨_, by decide, h⟩

end Registry

end Conform

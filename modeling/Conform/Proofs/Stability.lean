import Conform.Proofs.Acceptance
import Mathlib.Data.List.DropRight

/-!
# Results that are accepted again

A parser is stable if it takes its own results and answers each with itself. Under stable parsers a
schema accepts what it makes of a value, which is `accepts_result`. The result of a union is accepted
by the member that made it, though an earlier one may accept it as well; that of an object has under
each declared name what the name's schema made; and that of a record has all the keys of a closed
set, because nothing that is there is made absent (`present_result`).

Of the builtin parsers the first three are stable. Numbers read from text are not texts, so the
fourth is not.
-/

namespace Conform

/-! ## Stable parsers -/

/-- Whatever the parser makes of a value that is there is there too, and the parser answers it with
itself. -/
def Parser.Stable (p : Parser) : Prop :=
  ∀ input r, input.Present → p.parse input = .ok r → r.Present ∧ p.parse r = .ok r

/-- Nothing is dropped in front of what is left after characters were dropped at both ends. -/
theorem dropWhile_rdropWhile_dropWhile {α : Type} (p : α → Bool) (l : List α) :
    ((l.dropWhile p).rdropWhile p).dropWhile p = (l.dropWhile p).rdropWhile p := by
  rw [List.dropWhile_eq_self_iff]
  intro hpos
  have hfront : (l.dropWhile p).rdropWhile p <+: l.dropWhile p := List.rdropWhile_prefix p _
  -- What is left starts with the first of those that were not dropped in front.
  have hlength : 0 < (l.dropWhile p).length := Nat.lt_of_lt_of_le hpos hfront.length_le
  rw [hfront.getElem hpos]
  exact List.dropWhile_get_zero_not p l hlength

/-- Trimmed text has no white space around it. -/
theorem Text.trim_trim (s : String) : trim (trim s) = trim s := by
  have htrim (s : String) :
      trim s = String.ofList ((s.toList.dropWhile isBlank).rdropWhile isBlank) := rfl
  rw [htrim (trim s), htrim s, String.toList_ofList, dropWhile_rdropWhile_dropWhile,
    List.rdropWhile_idempotent]

namespace Parser

/-- A whole number is answered with itself. -/
theorem stable_integer : integer.Stable := by
  intro input r _ h
  obtain ⟨d, -, rfl, rfl⟩ := integer_eq_ok.1 h
  exact ⟨⟨nofun, nofun⟩, h⟩

/-- A text with more than white space is answered with itself. -/
theorem stable_nonEmptyString : nonEmptyString.Stable := by
  intro input r _ h
  obtain ⟨s, -, rfl, rfl⟩ := nonEmptyString_eq_ok.1 h
  exact ⟨⟨nofun, nofun⟩, h⟩

/-- A trimmed text is answered with itself. -/
theorem stable_trimmedString : trimmedString.Stable := by
  intro input r _ h
  obtain ⟨s, rfl, rfl⟩ := trimmedString_eq_ok.1 h
  refine ⟨⟨nofun, nofun⟩, trimmedString_eq_ok.2 ⟨Text.trim s, rfl, ?_⟩⟩
  rw [Text.trim_trim]

/-- The number that a text is read to is refused. -/
theorem not_stable_numericString : ¬ numericString.Stable := by
  intro hstable
  have hzero : Double.ofText? (Text.trim "0") = some .zero := by decide
  have hparse : numericString.parse (.string "0") = .ok (.number .zero) := by
    refine numericString_eq_ok.2 ⟨"0", .zero, ?_, rfl, rfl⟩
    rw [hzero]
    rfl
  obtain ⟨-, hagain⟩ := hstable (.string "0") (.number .zero) ⟨nofun, nofun⟩ hparse
  cases hagain

/-- The registry's parsers under the first three names are stable. -/
theorem stable_of_builtins {name : String}
    (hname : name ∈ ["integer", "non_empty_string", "trimmed_string"]) {p : Parser}
    (hp : Registry.builtins.get? name = some p) : p.Stable := by
  -- A label does not change what a parser answers.
  have hlabel (label : String) {q : Parser} (hq : q.Stable) : (q.withLabel label).Stable := hq
  simp only [List.mem_cons, List.not_mem_nil, or_false] at hname
  rcases hname with rfl | rfl | rfl <;> obtain rfl := Option.some.inj hp
  · exact hlabel "integer" stable_integer
  · exact hlabel "non_empty_string" stable_nonEmptyString
  · exact hlabel "trimmed_string" stable_trimmedString

end Parser

/-- A check under stable parsers answers its own answer with itself. -/
theorem LeafCheck.Answers.again {check : LeafCheck} {m : Modifiers} {input value : Value}
    (h : check.Answers input value) (present : input.Present)
    (hstable : ∀ p, (Schema.leaf check m).parser? = some p → p.Stable) :
    value.Present ∧ check.Answers value value := by
  cases h with
  | primitive h => exact ⟨present, .primitive h⟩
  | options hl h => exact ⟨present, .options hl h⟩
  | parser h =>
    obtain ⟨hvalue, hagain⟩ := hstable _ rfl input value present h
    exact ⟨hvalue, .parser hagain⟩

namespace Schema

/-! ## Results under stable parsers -/

/-- The result of a value that is there is there. -/
theorem present_result {schema : Schema} {input : Value}
    (hparsers : schema.EveryParser Parser.Stable) (h : schema.Accepts input)
    (present : input.Present) : (schema.result input).Present := by
  revert hparsers present
  refine accepts_induct (motive := fun schema input r =>
    schema.EveryParser Parser.Stable → input.Present → r.Present) ?null ?undefined ?leaf ?union
    ?list ?object ?record schema input h
  case null => exact fun _ _ present => present
  case undefined => exact fun _ _ present => present
  case leaf =>
    intro check m input value present hanswers hparsers _
    exact (hanswers.again present hparsers.here).1
  case union =>
    intro first second third m input member _ hmember ih hparsers present
    exact ih (hparsers.child (mem_of_firstAccepting hmember).1) present
  case list | object | record =>
    intros
    exact ⟨nofun, nofun⟩

/-- The result of a value is absent exactly if the value is. -/
theorem isUndefined_result {schema : Schema} {input : Value}
    (hparsers : schema.EveryParser Parser.Stable) (h : schema.Accepts input) :
    (schema.result input).isUndefined = input.isUndefined := by
  by_cases hundefined : input = .undefined
  · rw [hundefined, result_undefined]
  by_cases hnull : input = .null
  · rw [hnull, result_null]
  have hpresent := present_result hparsers h ⟨hnull, hundefined⟩
  rw [Bool.eq_iff_iff]
  constructor
  · intro hr
    exact absurd (Value.isUndefined_iff.1 hr) hpresent.2
  · intro hinput
    exact absurd (Value.isUndefined_iff.1 hinput) hundefined

/-- The result of an object has under each declared name what the name's schema made of the value
there. -/
theorem get_result_object {properties : List (String × Schema)}
    (hnames : Entries.Distinct properties) (f : String × Schema → Value) {p : String × Schema}
    (hp : p ∈ properties) :
    (Value.object (definedEntries (properties.map fun p => (p.1, f p)))).get p.1 = f p := by
  have hdistinct : Entries.Distinct (properties.map fun p => (p.1, f p)) :=
    Entries.distinct_map hnames f
  rw [get_definedEntries hdistinct, Value.get,
    Entries.get?_of_mem hdistinct (List.mem_map_of_mem hp)]
  rfl

/-- Under stable parsers, what a schema makes of a value is accepted. -/
theorem accepts_result {schema : Schema} {input : Value}
    (hparsers : schema.EveryParser Parser.Stable) (hnames : schema.NamesDistinct)
    (h : schema.Accepts input) : schema.Accepts (schema.result input) := by
  revert hparsers hnames
  refine accepts_induct (motive := fun schema input r =>
    schema.EveryParser Parser.Stable → schema.NamesDistinct → schema.Accepts r) ?null ?undefined
    ?leaf ?union ?list ?object ?record schema input h
  case null => exact fun hnull _ _ => .null hnull
  case undefined => exact fun hundefined _ _ => .undefined hundefined
  case leaf =>
    intro check m input value present hanswers hparsers _
    obtain ⟨hvalue, hagain⟩ := hanswers.again present hparsers.here
    exact .leaf hvalue hagain
  case union =>
    intro first second third m input member present hmember ih hparsers hnames
    obtain ⟨hmem, haccepts⟩ := mem_of_firstAccepting hmember
    have hresult := present_result (hparsers.child hmem) haccepts present
    exact .union hresult hmem (ih (hparsers.child hmem) (hnames.child hmem))
  case list =>
    intro schema input parts hparts _ ih hparsers hnames
    rw [accepts_list (listParts_map hparts _), List.forall_mem_map]
    intro part hp
    have hchild := (mem_of_listParts hparts hp).1
    exact ih part hp (hparsers.child hchild) (hnames.child hchild)
  case object =>
    intro properties m entries _ ih hparsers hnames
    refine accepts_object.2 fun p hp => ?_
    have hchild := mem_children_object hp m
    rw [get_result_object hnames.here _ hp]
    exact ih p hp (hparsers.child hchild) (hnames.child hchild)
  case record =>
    intro keys values m entries hkeys hvalues hmissing ih hparsers hnames
    have hchild := mem_children_record keys values m
    refine accepts_record.2 ⟨fun e he => ?_, fun e he => ?_, ?_⟩
    · obtain ⟨a, ha, hkey, -⟩ := mem_definedEntries_map he
      exact hkey ▸ hkeys a ha
    · obtain ⟨a, ha, -, hvalue, -⟩ := mem_definedEntries_map he
      exact hvalue ▸ ih a ha (hparsers.child hchild) (hnames.child hchild)
    · rw [missingIn_eq_nil] at hmissing ⊢
      intro literals hliterals hoptional l hl
      obtain ⟨e, he, hkey⟩ := List.mem_map.1 (hmissing literals hliterals hoptional l hl)
      -- The schema of the values does not take absence, so the entry is there and stays.
      have hdefined : (values.result e.2).isUndefined = false := by
        rw [isUndefined_result (hparsers.child hchild) (hvalues e he), ← Bool.not_eq_true,
          Value.isUndefined_iff]
        intro hundefined
        have haccepts := hvalues e he
        rw [hundefined, accepts_undefined, hoptional] at haccepts
        cases haccepts
      have hentry : (e.1, values.result e.2) ∈
          definedEntries (entries.map fun e => (e.1, values.result e.2)) :=
        List.mem_filter.2 ⟨List.mem_map_of_mem he, by simp [hdefined]⟩
      have hkept := List.mem_map_of_mem (f := Prod.fst) hentry
      exact hkey ▸ hkept

end Schema

end Conform

import Conform.Proofs.Build
import Conform.Proofs.Evidence
import Conform.Proofs.Pruning
import Conform.Proofs.Stability

/-!
# Validating a result again

A result that is validated again under the same schema is accepted again, if the parsers of the
schema are stable. It need not come out as it was: a union may now choose a member before the one
that made the result, because the keys for which that member had rejected the value are gone.
`Schema.Reselects` says that a walk comes across such a union, where the member chosen for the
result makes another value of it, by way of unions that choose the same member for the value and for
their results. `result_result_iff` says that nothing else changes a result. So without unions the
second result is the first.

`evaluate_result_eq_iff` says of schemas without parsers what becomes of a result, and
`not_evaluate_result_eq` is a union that takes from its own result. `evaluate_result_of_stable` is
about all schemas with stable parsers, among them those that documents make of the builtin ones.
-/

namespace Conform

/-! ## Entries made twice -/

/-- What is made of the entries that are kept is made of all, if nothing is made of absence. -/
theorem definedEntries_map_definedEntries {f : Value → Value} (hf : f .undefined = .undefined)
    (l : List (String × Value)) :
    definedEntries ((definedEntries l).map fun e => (e.1, f e.2)) =
      definedEntries (l.map fun e => (e.1, f e.2)) := by
  induction l with
  | nil => rfl
  | cons e rest ih =>
    rw [definedEntries_cons, List.map_cons, definedEntries_cons]
    by_cases he : e.2.isUndefined = true
    · have hfe : (f e.2).isUndefined = true := by rw [Value.isUndefined_iff.1 he, hf]; rfl
      rw [if_pos he, if_pos hfe, ih]
    · rw [if_neg he, List.map_cons, definedEntries_cons, ih]

/-- Two ways to make entries that agree on which are absent leave the same ones exactly if they
always make the same. -/
theorem definedEntries_map_inj {α : Type} {l : List α} {name : α → String} {f g : α → Value}
    (h : ∀ a ∈ l, (f a).isUndefined = (g a).isUndefined) :
    definedEntries (l.map fun a => (name a, f a)) = definedEntries (l.map fun a => (name a, g a)) ↔
      ∀ a ∈ l, f a = g a := by
  induction l with
  | nil => simp
  | cons a rest ih =>
    obtain ⟨ha, hrest⟩ := List.forall_mem_cons.1 h
    rw [List.map_cons, List.map_cons, definedEntries_cons, definedEntries_cons,
      List.forall_mem_cons, ← ih hrest]
    by_cases hg : (g a).isUndefined = true
    · -- Both are absent, and so the same.
      have hf : (f a).isUndefined = true := ha.trans hg
      have hsame : f a = g a := by rw [Value.isUndefined_iff.1 hf, Value.isUndefined_iff.1 hg]
      rw [if_pos hf, if_pos hg]
      exact (and_iff_right hsame).symm
    · have hf : ¬ (f a).isUndefined = true := ha ▸ hg
      rw [if_neg hf, if_neg hg, List.cons.injEq, Prod.mk.injEq]
      exact and_congr_left' (and_iff_right rfl)

namespace Schema

/-! ## Other choices on the result -/

/-- The walk of the value comes to a union that makes another value of its own result: a member that
had rejected the value is chosen for the result, and changes it. On the way there it goes into the
parts of the value, and of a union into the member that is chosen, if this member is chosen again
for the union's own result. -/
inductive Reselects : Schema → Value → Prop
  | earlier {first second chosen next : Schema} {third : Option Schema} {m : Modifiers}
    {input : Value} (present : input.Present)
    (hchosen : firstAccepting (unionMembers first second third) input = some chosen)
    (hnext : firstAccepting (unionMembers first second third) (chosen.result input) = some next)
    (rejected : ¬ next.Accepts input)
    (changed : next.result (chosen.result input) ≠ chosen.result input) :
    Reselects (.union first second third m) input
  | member {first second chosen : Schema} {third : Option Schema} {m : Modifiers}
    {input : Value} (present : input.Present)
    (hchosen : firstAccepting (unionMembers first second third) input = some chosen)
    (hagain : firstAccepting (unionMembers first second third) (chosen.result input) = some chosen)
    (inner : Reselects chosen input) : Reselects (.union first second third m) input
  | part {schema : Schema} {input : Value} {parts : List (Schema × Value)}
    {part : Schema × Value} (h : schema.listParts? input = some parts) (hp : part ∈ parts)
    (inner : Reselects part.1 part.2) : Reselects schema input
  | property {properties : List (String × Schema)} {m : Modifiers}
    {entries : List (String × Value)} {p : String × Schema} (hp : p ∈ properties)
    (inner : Reselects p.2 ((Value.object entries).get p.1)) :
    Reselects (.object properties m) (.object entries)
  | value {keys : KeyCheck} {values : Schema} {m : Modifiers} {entries : List (String × Value)}
    {e : String × Value} (he : e ∈ entries) (inner : Reselects values e.2) :
    Reselects (.record keys values m) (.object entries)

/-- Null and absence are not walked into. -/
theorem not_reselects_of_not_present {schema : Schema} {input : Value} (h : ¬ input.Present) :
    ¬ schema.Reselects input := by
  intro hreselects
  cases hreselects with
  | earlier present | member present => exact h present
  | part hparts =>
    obtain rfl := input_of_listParts hparts
    exact h ⟨nofun, nofun⟩
  | property | value => exact h ⟨nofun, nofun⟩

/-- A check of single values makes no choices. -/
theorem not_reselects_leaf {check : LeafCheck} {m : Modifiers} {input : Value} :
    ¬ (leaf check m).Reselects input := by
  intro hreselects
  cases hreselects with
  | part hparts => cases hparts

/-- A union makes another value of its own result if the member chosen for the result is not the one
chosen for the value and changes it, or is the same and does so itself. -/
theorem reselects_union {first second chosen next : Schema} {third : Option Schema} {m : Modifiers}
    {input : Value} (present : input.Present)
    (hchosen : firstAccepting (unionMembers first second third) input = some chosen)
    (hnext : firstAccepting (unionMembers first second third) (chosen.result input) = some next) :
    (union first second third m).Reselects input ↔
      (¬ next.Accepts input ∧ next.result (chosen.result input) ≠ chosen.result input) ∨
        (next = chosen ∧ chosen.Reselects input) := by
  constructor
  · intro hreselects
    cases hreselects with
    | earlier _ hchosen' hnext' rejected changed =>
      obtain rfl := Option.some.inj (hchosen.symm.trans hchosen')
      obtain rfl := Option.some.inj (hnext.symm.trans hnext')
      exact .inl ⟨rejected, changed⟩
    | member _ hchosen' hagain inner =>
      obtain rfl := Option.some.inj (hchosen.symm.trans hchosen')
      obtain rfl := Option.some.inj (hnext.symm.trans hagain)
      exact .inr ⟨rfl, inner⟩
    | part hparts => cases hparts
  · rintro (⟨rejected, changed⟩ | ⟨rfl, inner⟩)
    · exact .earlier present hchosen hnext rejected changed
    · exact .member present hchosen hnext inner

/-- A list comes to such a union if one of its parts does. -/
theorem reselects_list {schema : Schema} {input : Value} {parts : List (Schema × Value)}
    (h : schema.listParts? input = some parts) :
    schema.Reselects input ↔ ∃ part ∈ parts, part.1.Reselects part.2 := by
  constructor
  · intro hreselects
    cases hreselects with
    | part hparts hp inner =>
      obtain rfl := Option.some.inj (h.symm.trans hparts)
      exact ⟨_, hp, inner⟩
    | _ => cases h
  · rintro ⟨part, hp, inner⟩
    exact .part h hp inner

/-- An object comes to such a union if one of its declared properties does. -/
theorem reselects_object {properties : List (String × Schema)} {m : Modifiers}
    {entries : List (String × Value)} :
    (object properties m).Reselects (.object entries) ↔
      ∃ p ∈ properties, p.2.Reselects ((Value.object entries).get p.1) := by
  constructor
  · intro hreselects
    cases hreselects with
    | part hparts => cases hparts
    | property hp inner => exact ⟨_, hp, inner⟩
  · rintro ⟨p, hp, inner⟩
    exact .property hp inner

/-- A record comes to such a union if one of its values does. -/
theorem reselects_record {keys : KeyCheck} {values : Schema} {m : Modifiers}
    {entries : List (String × Value)} :
    (record keys values m).Reselects (.object entries) ↔
      ∃ e ∈ entries, values.Reselects e.2 := by
  constructor
  · intro hreselects
    cases hreselects with
    | part hparts => cases hparts
    | value he inner => exact ⟨_, he, inner⟩
  · rintro ⟨e, he, inner⟩
    exact .value he inner

/-- Without unions no choices are made. -/
theorem not_reselects_of_unionFree {schema : Schema} {input : Value} (hunion : schema.UnionFree) :
    ¬ schema.Reselects input := by
  intro hreselects
  induction hreselects with
  | earlier | member => cases hunion.here
  | part h hp inner ih => exact ih (hunion.child (mem_of_listParts h hp).1)
  | property hp inner ih => exact ih (hunion.child (mem_children_object hp _))
  | value he inner ih => exact ih (hunion.child (mem_children_record ..))

/-! ## The result of a result -/

/-- The negation of an existence, member by member. -/
theorem forall_mem_iff_not_exists {α : Type} {l : List α} {p q : α → Prop}
    (h : ∀ a ∈ l, (p a ↔ ¬ q a)) : (∀ a ∈ l, p a) ↔ ¬ ∃ a ∈ l, q a := by
  simp only [not_exists, not_and]
  exact forall₂_congr h

/-- Under stable parsers, a schema makes of its result the same again exactly if no union on the way
chooses otherwise and changes it. -/
theorem result_result_iff {schema : Schema} {input : Value}
    (hparsers : schema.EveryParser Parser.Stable) (hnames : schema.NamesDistinct)
    (h : schema.Accepts input) :
    schema.result (schema.result input) = schema.result input ↔ ¬ schema.Reselects input := by
  revert hparsers hnames
  refine accepts_induct (motive := fun schema input r =>
    schema.EveryParser Parser.Stable → schema.NamesDistinct →
      (schema.result r = r ↔ ¬ schema.Reselects input)) ?null ?undefined ?leaf ?union ?list ?object
    ?record schema input h
  case null =>
    intro schema _ _ _
    rw [result_null]
    exact iff_of_true rfl (not_reselects_of_not_present fun present => present.1 rfl)
  case undefined =>
    intro schema _ _ _
    rw [result_undefined]
    exact iff_of_true rfl (not_reselects_of_not_present fun present => present.2 rfl)
  case leaf =>
    intro check m input value present hanswers hparsers _
    obtain ⟨hvalue, hagain⟩ := hanswers.again present hparsers.here
    exact iff_of_true (result_leaf hvalue hagain) not_reselects_leaf
  case union =>
    intro first second third m input chosen present hchosen ih hparsers hnames
    obtain ⟨hmem, haccepts⟩ := mem_of_firstAccepting hchosen
    have hresult := present_result (hparsers.child hmem) haccepts present
    have hagain := accepts_result (hparsers.child hmem) (hnames.child hmem) haccepts
    obtain ⟨next, hnext⟩ := exists_firstAccepting ⟨chosen, hmem, hagain⟩
    rw [result_union_of_firstAccepting m hresult hnext, reselects_union present hchosen hnext]
    by_cases hinput : next.Accepts input
    · -- The first member to accept both the value and the result is the same.
      obtain rfl := firstAccepting_unique hchosen hnext hagain hinput
      rw [ih (hparsers.child hmem) (hnames.child hmem)]
      simp [hinput]
    · have hne : next ≠ chosen := fun heq => hinput (heq ▸ haccepts)
      simp [hinput, hne]
  case list =>
    intro schema input parts hparts _ ih hparsers hnames
    rw [result_list (listParts_map hparts _), reselects_list hparts, Value.array.injEq,
      List.map_map, List.map_inj_left]
    refine forall_mem_iff_not_exists fun part hp => ?_
    have hchild := (mem_of_listParts hparts hp).1
    exact ih part hp (hparsers.child hchild) (hnames.child hchild)
  case object =>
    intro properties m entries haccepts ih hparsers hnames
    -- Under each name the second walk finds what the first has made there.
    have hget : (properties.map fun p => (p.1, p.2.result ((Value.object (definedEntries
        (properties.map fun p => (p.1, p.2.result ((Value.object entries).get p.1))))).get p.1))) =
        properties.map fun p => (p.1, p.2.result (p.2.result ((Value.object entries).get p.1))) :=
      List.map_congr_left fun p hp => by rw [get_result_object hnames.here _ hp]
    rw [result_object, reselects_object, hget, Value.object.injEq, definedEntries_map_inj]
    · refine forall_mem_iff_not_exists fun p hp => ?_
      have hchild := mem_children_object hp m
      exact ih p hp (hparsers.child hchild) (hnames.child hchild)
    · intro p hp
      have hchild := mem_children_object hp m
      have hagain := accepts_result (hparsers.child hchild) (hnames.child hchild) (haccepts p hp)
      exact isUndefined_result (hparsers.child hchild) hagain
  case record =>
    intro keys values m entries _ hvalues _ ih hparsers hnames
    have hchild := mem_children_record keys values m
    have hstable := hparsers.child hchild
    rw [result_record, reselects_record, Value.object.injEq,
      definedEntries_map_definedEntries values.result_undefined, List.map_map]
    simp only [Function.comp_def]
    rw [definedEntries_map_inj]
    · refine forall_mem_iff_not_exists fun e he => ?_
      exact ih e he hstable (hnames.child hchild)
    · intro e he
      have hagain := accepts_result hstable (hnames.child hchild) (hvalues e he)
      exact isUndefined_result hstable hagain

/-! ## Evaluations -/

/-- Without parsers, a result that is validated again is accepted, and comes out with keys deleted
at most. It comes out the same exactly if no union on the way chooses otherwise and changes it. -/
theorem evaluate_result_eq_iff (schema : Schema) (input r : Value) (hparsers : schema.ParserFree)
    (hnames : schema.NamesDistinct) (hinput : input.Valid)
    (h : (schema.evaluate input).outcome = .valid r) :
    ∃ again, (schema.evaluate r).outcome = .valid again ∧ again.PrunedFrom r ∧
      (again = r ↔ ¬ schema.Reselects input) := by
  obtain ⟨haccepts, rfl⟩ := evaluate_valid.1 h
  have hagain := accepts_result hparsers.everyParser hnames haccepts
  have hvalid := valid_result schema input hparsers hnames hinput haccepts
  refine ⟨schema.result (schema.result input), evaluate_valid.2 ⟨hagain, rfl⟩, ?_, ?_⟩
  · exact prunedFrom_result schema (schema.result input) hparsers hvalid hagain
  · exact result_result_iff hparsers.everyParser hnames haccepts

/-- An object that may have a number under `a`, or else one that has anything under `b`. -/
def numberOrAny : Schema :=
  union2 (objectOf [("a", (primitive .number).optional)]) (objectOf [("b", primitive .any)])

/-- An object with a text under both names. -/
def bothTexts : Value := .object [("a", .string "s"), ("b", .string "q")]

/-- The two names are distinct. -/
theorem valid_bothTexts : bothTexts.Valid := by
  simp [bothTexts, Value.Valid, Value.ValidEntries, Entries.Distinct]

/-- The text under `a` is no number, so the second member is chosen and leaves the one under `b`. -/
theorem evaluate_bothTexts :
    (numberOrAny.evaluate bothTexts).outcome = .valid (.object [("b", .string "q")]) := rfl

/-- Without the text under `a` the first member is chosen, and has another result. -/
theorem evaluate_result_of_bothTexts :
    numberOrAny.ParserFree ∧ numberOrAny.NamesDistinct ∧ bothTexts.Valid ∧
      (numberOrAny.evaluate bothTexts).outcome = .valid (.object [("b", .string "q")]) ∧
      ∃ again, (numberOrAny.evaluate (.object [("b", .string "q")])).outcome = .valid again ∧
        again.PrunedFrom (.object [("b", .string "q")]) ∧
        (again = .object [("b", .string "q")] ↔ ¬ numberOrAny.Reselects bothTexts) := by
  have hparsers : numberOrAny.ParserFree := by decide
  have hnames : numberOrAny.NamesDistinct := by decide
  exact ⟨hparsers, hnames, valid_bothTexts, evaluate_bothTexts,
    evaluate_result_eq_iff numberOrAny _ _ hparsers hnames valid_bothTexts evaluate_bothTexts⟩

/-- A result need not come out the same: of two texts the one under `b` is left, and of that one
nothing. -/
theorem not_evaluate_result_eq :
    ¬ ∀ (schema : Schema) (input r : Value), schema.ParserFree → schema.NamesDistinct →
      input.Valid → (schema.evaluate input).outcome = .valid r →
      (schema.evaluate r).outcome = .valid r := by
  intro hsame
  have hagain := hsame numberOrAny bothTexts _ (by decide) (by decide) valid_bothTexts
    evaluate_bothTexts
  have hnothing : (numberOrAny.evaluate (.object [("b", .string "q")])).outcome =
      .valid (.object []) := rfl
  rw [hnothing] at hagain
  cases hagain

/-- Under stable parsers a result is accepted again, and without unions it comes out the same and
leaves no messages. The first three of the builtin parsers are stable, so that this is about all
schemas of documents with no other parsers, and the fourth is not. -/
theorem evaluate_result_of_stable :
    (∀ (schema : Schema) (input r : Value), schema.EveryParser Parser.Stable →
      schema.NamesDistinct → (schema.evaluate input).outcome = .valid r →
        (schema.evaluate r).outcome.isValid = true ∧
          (schema.UnionFree → (schema.evaluate r).outcome = .valid r ∧
            (schema.evaluate r).messages = #[])) ∧
    Parser.integer.Stable ∧ Parser.nonEmptyString.Stable ∧ Parser.trimmedString.Stable ∧
    ¬ Parser.numericString.Stable ∧
    ∀ (document : Document) (schema : Schema), document.build .builtins = .ok schema →
      document.NamesDistinct → (∀ name ∈ document.parserNames,
        name ∈ ["integer", "non_empty_string", "trimmed_string"]) →
      schema.EveryParser Parser.Stable ∧ schema.NamesDistinct := by
  refine ⟨fun schema input r hparsers hnames h => ?_, Parser.stable_integer,
    Parser.stable_nonEmptyString, Parser.stable_trimmedString, Parser.not_stable_numericString,
    fun document schema hbuild hnames hdocument => ?_⟩
  · obtain ⟨haccepts, rfl⟩ := evaluate_valid.1 h
    have hagain := accepts_result hparsers hnames haccepts
    refine ⟨?_, fun hunion => ?_⟩
    · rw [evaluate_valid.2 ⟨hagain, rfl⟩]
      rfl
    · have hsame := (result_result_iff hparsers hnames haccepts).2
        (not_reselects_of_unionFree hunion)
      have hpass : (schema.verdict (schema.result input)).outcome ≠ .invalid := by
        rw [verdict_valid.2 ⟨hagain, hsame⟩]
        nofun
      refine ⟨evaluate_valid.2 ⟨hagain, hsame⟩, ?_⟩
      rw [evaluate_messages, messages_eq_nil_of_valid schema _ hunion hpass]
  · refine ⟨?_, Document.namesDistinct_build hbuild hnames⟩
    exact Document.everyParser_build hbuild fun name hname p hp =>
      Parser.stable_of_builtins (hdocument name hname) hp

/-- A document of an object with a whole number and a list of trimmed texts. -/
def memberDocument : Document :=
  .object [("id", .parser "integer" .none), ("names", .array (.parser "trimmed_string" .none) .none)]
    .none

/-- The schema of the document, with the builtin parsers. -/
def memberSchema : Schema :=
  objectOf [("id", parser (Parser.integer.withLabel "integer")),
    ("names", listOf (parser (Parser.trimmedString.withLabel "trimmed_string")))]

/-- The trimmed name and the number come out the same, without a message. -/
theorem evaluate_result_of_memberSchema :
    memberDocument.build .builtins = .ok memberSchema ∧ memberDocument.NamesDistinct ∧
      (∀ name ∈ memberDocument.parserNames,
        name ∈ ["integer", "non_empty_string", "trimmed_string"]) ∧
      memberSchema.EveryParser Parser.Stable ∧ memberSchema.NamesDistinct ∧
      (memberSchema.evaluate (.object [("id", .number .zero), ("names", .array [.string " a "]),
        ("more", .null)])).outcome =
          .valid (.object [("id", .number .zero), ("names", .array [.string "a"])]) ∧
      memberSchema.UnionFree ∧
      (memberSchema.evaluate
        (.object [("id", .number .zero), ("names", .array [.string "a"])])).outcome.isValid = true ∧
      (memberSchema.evaluate
        (.object [("id", .number .zero), ("names", .array [.string "a"])])).outcome =
          .valid (.object [("id", .number .zero), ("names", .array [.string "a"])]) ∧
      (memberSchema.evaluate
        (.object [("id", .number .zero), ("names", .array [.string "a"])])).messages = #[] := by
  have hbuild : memberDocument.build .builtins = .ok memberSchema := rfl
  have hdistinct : memberDocument.NamesDistinct := by decide
  have hdocument : ∀ name ∈ memberDocument.parserNames,
      name ∈ ["integer", "non_empty_string", "trimmed_string"] := by decide
  obtain ⟨hparsers, hnames⟩ :=
    evaluate_result_of_stable.2.2.2.2.2 memberDocument memberSchema hbuild hdistinct hdocument
  have hunion : memberSchema.UnionFree := by decide
  have hfirst : (memberSchema.evaluate (.object [("id", .number .zero),
      ("names", .array [.string " a "]), ("more", .null)])).outcome =
        .valid (.object [("id", .number .zero), ("names", .array [.string "a"])]) := rfl
  obtain ⟨hvalid, hsame⟩ :=
    evaluate_result_of_stable.1 memberSchema _ _ hparsers hnames hfirst
  exact ⟨hbuild, hdistinct, hdocument, hparsers, hnames, hfirst, hunion, hvalid, hsame hunion⟩

end Schema

end Conform

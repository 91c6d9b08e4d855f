import Conform.Proofs.Acceptance

/-!
# Loosening a part of a schema

A schema is looser than another if it accepts whatever the other accepts, and extends the other if
it makes the same of it as well. `evaluate_fill_of_looser` says that a schema is loosened by
loosening any part of it, and extended by extending a part that is not below a union, whose choice
of a member may change. Accepting null or absence besides is one way to extend a part.

The place of a part is a list of frames, the outermost first. A frame is a node with a gap for one
child, and every child has its frame (`exists_plug`). So there is one lemma for each kind of node,
`Looser.plug` and `Extends.plug` put them together, and the induction is along the place.

The kind where the child's modifiers count is the record. It asks for all keys of a closed set
unless the schema of the values is optional, and a looser one is optional where the other is,
because otherwise it would reject absence.
-/

namespace Conform

namespace Schema

/-! ## Frames -/

/-- A node of a schema with a gap in the place of one child. -/
inductive Frame where
  | firstMember (second : Schema) (third : Option Schema) (m : Modifiers)
  | secondMember (first : Schema) (third : Option Schema) (m : Modifiers)
  | thirdMember (first second : Schema) (m : Modifiers)
  | element (m : Modifiers)
  | item (before after : List Schema) (m : Modifiers)
  | property (before : List (String × Schema)) (name : String) (after : List (String × Schema))
    (m : Modifiers)
  | values (keys : KeyCheck) (m : Modifiers)

/-- The node with a schema in its gap. -/
def Frame.plug (frame : Frame) (s : Schema) : Schema :=
  match frame with
  | .firstMember second third m => .union s second third m
  | .secondMember first third m => .union first s third m
  | .thirdMember first second m => .union first second (some s) m
  | .element m => .array s m
  | .item before after m => .tuple (before ++ s :: after) m
  | .property before name after m => .object (before ++ (name, s) :: after) m
  | .values keys m => .record keys s m

/-- Whether the gap is for a member of a union. -/
def Frame.isUnion : Frame → Bool
  | .firstMember .. | .secondMember .. | .thirdMember .. => true
  | _ => false

/-- The schema with a part put in its place. -/
def fill (place : List Frame) (part : Schema) : Schema :=
  place.foldr (fun frame s => frame.plug s) part

/-- The schema is the other, or a part of one of the other's children. -/
inductive IsPart (part : Schema) : Schema → Prop
  | self : IsPart part part
  | child {whole c : Schema} (hc : c ∈ whole.children) (h : IsPart part c) : IsPart part whole

/-- The place is not below a union. -/
def OutsideUnions (place : List Frame) : Prop := ∀ frame ∈ place, frame.isUnion = false

/-- Every child of a schema stands in a frame. -/
theorem exists_plug {schema child : Schema} (h : child ∈ schema.children) :
    ∃ frame : Frame, frame.plug child = schema := by
  cases schema with
  | leaf check m => exact absurd h List.not_mem_nil
  | union first second third m =>
    rw [children, unionMembers, List.mem_cons, List.mem_cons] at h
    rcases h with rfl | rfl | h
    · exact ⟨.firstMember second third m, rfl⟩
    · exact ⟨.secondMember first third m, rfl⟩
    · obtain rfl : third = some child := Option.mem_toList.1 h
      exact ⟨.thirdMember first second m, rfl⟩
  | array element m =>
    obtain rfl := List.mem_singleton.1 h
    exact ⟨.element m, rfl⟩
  | tuple items m =>
    obtain ⟨before, after, rfl⟩ := List.append_of_mem h
    exact ⟨.item before after m, rfl⟩
  | object properties m =>
    obtain ⟨⟨name, s⟩, hp, rfl⟩ := List.mem_map.1 h
    obtain ⟨before, after, rfl⟩ := List.append_of_mem hp
    exact ⟨.property before name after m, rfl⟩
  | record keys values m =>
    obtain rfl := List.mem_singleton.1 h
    exact ⟨.values keys m, rfl⟩

/-- What stands in the gap is a child. -/
theorem mem_children_plug (frame : Frame) (s : Schema) : s ∈ (frame.plug s).children := by
  cases frame <;> simp [Frame.plug, children, unionMembers, Entries.values]

/-- The parts of a schema are what has a place in it. -/
theorem isPart_iff {part whole : Schema} :
    part.IsPart whole ↔ ∃ place : List Frame, fill place part = whole := by
  constructor
  · intro h
    induction h with
    | self => exact ⟨[], rfl⟩
    | child hc _ ih =>
      obtain ⟨frame, hframe⟩ := exists_plug hc
      obtain ⟨place, hplace⟩ := ih
      refine ⟨frame :: place, ?_⟩
      rw [← hframe, ← hplace]
      rfl
  · rintro ⟨place, rfl⟩
    induction place with
    | nil => exact .self
    | cons frame place ih => exact .child (mem_children_plug frame _) ih

/-! ## Looser schemas -/

/-- The schema accepts whatever the other accepts. -/
def Looser (s' s : Schema) : Prop := ∀ input, s.Accepts input → s'.Accepts input

/-- The schema accepts whatever the other accepts, and makes the same of it. -/
def Extends (s' s : Schema) : Prop :=
  ∀ input, s.Accepts input → s'.Accepts input ∧ s'.result input = s.result input

/-- Every schema is as loose as itself. -/
theorem Looser.refl (s : Schema) : s.Looser s := fun _ h => h

/-- An extension is looser. -/
theorem Extends.looser {s s' : Schema} (h : s'.Extends s) : s'.Looser s :=
  fun input haccepts => (h input haccepts).1

/-- A schema that is looser than an optional one is optional. -/
theorem Looser.optional_eq_false {s s' : Schema} (h : s'.Looser s)
    (hoptional : s'.modifiers.optional = false) : s.modifiers.optional = false := by
  rw [Bool.eq_false_iff, ne_eq, ← accepts_undefined] at hoptional ⊢
  exact mt (h .undefined) hoptional

/-- Whatever stands in the gap of a tuple, a list of the right length has the same parts before it
and behind it. -/
theorem exists_zip_eq {before after : List Schema} {items : List Value}
    (h : items.length = before.length + (after.length + 1)) :
    ∃ front value back, ∀ s : Schema,
      (before ++ s :: after).zip items = front ++ (s, value) :: back := by
  have hlt : before.length < items.length := by omega
  have hfront : before.length = (items.take before.length).length := by
    rw [List.length_take_of_le (Nat.le_of_lt hlt)]
  have hitems : items.take before.length ++ items[before.length] ::
      items.drop (before.length + 1) = items := by
    rw [List.getElem_cons_drop, List.take_append_drop]
  refine ⟨before.zip (items.take before.length), items[before.length],
    after.zip (items.drop (before.length + 1)), fun s => ?_⟩
  calc (before ++ s :: after).zip items
      = (before ++ s :: after).zip (items.take before.length ++ items[before.length] ::
          items.drop (before.length + 1)) := by rw [hitems]
    _ = _ := by rw [List.zip_append hfront, List.zip_cons_cons]

section

variable {s s' : Schema} {m : Modifiers}

/-- A union is loosened by loosening its members. -/
theorem looser_union {first second first' second' : Schema} {third third' : Option Schema}
    (hfirst : first'.Looser first) (hsecond : second'.Looser second)
    (hthird : ∀ member ∈ third, ∃ member' ∈ third', member'.Looser member) :
    (union first' second' third' m).Looser (union first second third m) := by
  intro input haccepts
  cases haccepts with
  | null hm => exact .null hm
  | undefined hm => exact .undefined hm
  | union present hmember hinner =>
    rw [unionMembers, List.mem_cons, List.mem_cons, Option.mem_toList] at hmember
    rcases hmember with rfl | rfl | hmember
    · exact .union present (by simp [unionMembers]) (hfirst input hinner)
    · exact .union present (by simp [unionMembers]) (hsecond input hinner)
    · obtain ⟨member', hmember', hlooser⟩ := hthird _ hmember
      exact .union present (by simp_all [unionMembers]) (hlooser input hinner)

/-- A list is loosened by loosening the schema of its elements. -/
theorem looser_array (h : s'.Looser s) : (array s' m).Looser (array s m) := by
  intro input haccepts
  cases haccepts with
  | null hm => exact .null hm
  | undefined hm => exact .undefined hm
  | array hitems => exact .array fun item hitem => h item (hitems item hitem)

/-- A tuple is loosened by loosening the schema of one item. -/
theorem looser_tuple (h : s'.Looser s) (before after : List Schema) :
    (tuple (before ++ s' :: after) m).Looser (tuple (before ++ s :: after) m) := by
  intro input haccepts
  cases haccepts with
  | null hm => exact .null hm
  | undefined hm => exact .undefined hm
  | tuple length hparts =>
    rw [List.length_append, List.length_cons] at length
    obtain ⟨front, value, back, hzip⟩ := exists_zip_eq length
    refine .tuple (by rw [length, List.length_append, List.length_cons]) ?_
    rw [hzip, List.forall_mem_append, List.forall_mem_cons] at hparts ⊢
    exact ⟨hparts.1, h value hparts.2.1, hparts.2.2⟩

/-- An object is loosened by loosening the schema of one property. -/
theorem looser_object (h : s'.Looser s) (before : List (String × Schema)) (name : String)
    (after : List (String × Schema)) :
    (object (before ++ (name, s') :: after) m).Looser
      (object (before ++ (name, s) :: after) m) := by
  intro input haccepts
  cases haccepts with
  | null hm => exact .null hm
  | undefined hm => exact .undefined hm
  | object hproperties =>
    rw [List.forall_mem_append, List.forall_mem_cons] at hproperties
    refine .object ?_
    rw [List.forall_mem_append, List.forall_mem_cons]
    exact ⟨hproperties.1, h _ hproperties.2.1, hproperties.2.2⟩

/-- A record is loosened by loosening the schema of its values. -/
theorem looser_record (h : s'.Looser s) (keys : KeyCheck) :
    (record keys s' m).Looser (record keys s m) := by
  intro input haccepts
  cases haccepts with
  | null hm => exact .null hm
  | undefined hm => exact .undefined hm
  | record hkeys hvalues complete =>
    refine .record hkeys (fun e he => h _ (hvalues e he)) fun literals hliterals hoptional => ?_
    exact complete literals hliterals (h.optional_eq_false hoptional)

end

/-- A node is loosened by loosening one child. -/
theorem Looser.plug {s s' : Schema} (h : s'.Looser s) (frame : Frame) :
    (frame.plug s').Looser (frame.plug s) := by
  cases frame with
  | firstMember second third m =>
    exact looser_union h (.refl second) fun member hmember => ⟨member, hmember, .refl member⟩
  | secondMember first third m =>
    exact looser_union (.refl first) h fun member hmember => ⟨member, hmember, .refl member⟩
  | thirdMember first second m =>
    refine looser_union (.refl first) (.refl second) fun member hmember => ⟨s', rfl, ?_⟩
    obtain rfl := Option.some.inj hmember
    exact h
  | element m => exact looser_array h
  | item before after m => exact looser_tuple h before after
  | property before name after m => exact looser_object h before name after
  | values keys m => exact looser_record h keys

/-- A schema is loosened by loosening a part anywhere in it. -/
theorem Looser.fill {s s' : Schema} (h : s'.Looser s) (place : List Frame) :
    (Schema.fill place s').Looser (Schema.fill place s) := by
  induction place with
  | nil => exact h
  | cons frame place ih => exact ih.plug frame

/-! ## The same results -/

/-- A node other than a union is extended by extending one child. -/
theorem Extends.plug {s s' : Schema} (h : s'.Extends s) {frame : Frame}
    (hframe : frame.isUnion = false) : (frame.plug s').Extends (frame.plug s) := by
  intro input haccepts
  refine ⟨h.looser.plug frame input haccepts, ?_⟩
  cases frame with
  | firstMember | secondMember | thirdMember => cases hframe
  | element m =>
    cases haccepts with
    | null => rw [result_null, result_null]
    | undefined => rw [result_undefined, result_undefined]
    | @array _ _ items hitems =>
      rw [Frame.plug, Frame.plug, result_array, result_array]
      exact congrArg Value.array (List.map_congr_left fun item hi => (h item (hitems item hi)).2)
  | item before after m =>
    cases haccepts with
    | null => rw [result_null, result_null]
    | undefined => rw [result_undefined, result_undefined]
    | tuple length hparts =>
      rw [Frame.plug, Frame.plug, result_tuple, result_tuple]
      rw [List.length_append, List.length_cons] at length
      obtain ⟨front, value, back, hzip⟩ := exists_zip_eq length
      rw [hzip, List.forall_mem_append, List.forall_mem_cons] at hparts
      rw [hzip, hzip, List.map_append, List.map_append, List.map_cons, List.map_cons,
        (h value hparts.2.1).2]
  | property before name after m =>
    cases haccepts with
    | null => rw [result_null, result_null]
    | undefined => rw [result_undefined, result_undefined]
    | object hproperties =>
      rw [List.forall_mem_append, List.forall_mem_cons] at hproperties
      simp only [Frame.plug, result_object, List.map_append, List.map_cons,
        (h _ hproperties.2.1).2]
  | values keys m =>
    cases haccepts with
    | null => rw [result_null, result_null]
    | undefined => rw [result_undefined, result_undefined]
    | @record _ _ _ entries _ hvalues =>
      have hresults : (entries.map fun e => (e.1, s'.result e.2)) =
          entries.map fun e => (e.1, s.result e.2) :=
        List.map_congr_left fun e he => by rw [(h e.2 (hvalues e he)).2]
      rw [Frame.plug, Frame.plug, result_record, result_record, hresults]

/-- A schema is extended by extending a part that is not below a union. -/
theorem Extends.fill {s s' : Schema} (h : s'.Extends s) {place : List Frame}
    (hplace : OutsideUnions place) : (Schema.fill place s').Extends (Schema.fill place s) := by
  induction place with
  | nil => exact h
  | cons frame place ih =>
    obtain ⟨hframe, hrest⟩ := List.forall_mem_cons.1 hplace
    exact (ih hrest).plug hframe

/-! ## More modifiers -/

/-- Whatever is neither null nor absent is accepted under all modifiers or none. -/
theorem Accepts.withModifiers {s : Schema} {input : Value} (h : s.Accepts input)
    (present : input.Present) (m : Modifiers) : (s.withModifiers m).Accepts input := by
  cases h with
  | null => exact absurd rfl present.1
  | undefined => exact absurd rfl present.2
  | leaf _ h => exact .leaf present h
  | union _ hmember h => exact .union present hmember h
  | array h => exact .array h
  | tuple length h => exact .tuple length h
  | object h => exact .object h
  | record hkeys hvalues complete => exact .record hkeys hvalues complete

/-- The modifiers have no say in what is made of a value. -/
theorem result_withModifiers (s : Schema) (m : Modifiers) (input : Value) :
    (s.withModifiers m).result input = s.result input := by
  cases s with
  | leaf check => cases check <;> cases input <;> simp only [Schema.withModifiers, result]
  | _ => cases input <;> simp only [Schema.withModifiers, result]

/-- The modifiers are those that the schema is put under. -/
theorem modifiers_withModifiers (s : Schema) (m : Modifiers) :
    (s.withModifiers m).modifiers = m := by
  cases s <;> rfl

/-- A schema is extended by modifiers that allow as much as its own. -/
theorem extends_withModifiers {s : Schema} {m : Modifiers}
    (hnull : s.modifiers.nullable = true → m.nullable = true)
    (hundefined : s.modifiers.optional = true → m.optional = true) :
    (s.withModifiers m).Extends s := by
  intro input haccepts
  refine ⟨?_, result_withModifiers s m input⟩
  cases input with
  | null =>
    rw [accepts_null] at haccepts ⊢
    rw [modifiers_withModifiers]
    exact hnull haccepts
  | undefined =>
    rw [accepts_undefined] at haccepts ⊢
    rw [modifiers_withModifiers]
    exact hundefined haccepts
  | _ => exact haccepts.withModifiers ⟨nofun, nofun⟩ m

/-- To accept null besides is an extension. -/
theorem nullable_extends (s : Schema) : s.nullable.Extends s :=
  extends_withModifiers (fun _ => rfl) fun h => h

/-- To accept absence besides is an extension. -/
theorem optional_extends (s : Schema) : s.optional.Extends s :=
  extends_withModifiers (fun h => h) fun _ => rfl

/-! ## Evaluations -/

/-- A schema is looser than another exactly if every evaluation that has a result under the other
has one. -/
theorem looser_iff_evaluate {s s' : Schema} :
    s'.Looser s ↔
      ∀ input, (s.evaluate input).isValid = true → (s'.evaluate input).isValid = true := by
  unfold Looser
  simp only [evaluate_isValid]

/-- A schema extends another exactly if every result of an evaluation under the other is a result
under it. -/
theorem extends_iff_evaluate {s s' : Schema} :
    s'.Extends s ↔ ∀ input r, (s.evaluate input).outcome = .valid r →
      (s'.evaluate input).outcome = .valid r := by
  simp only [evaluate_valid]
  constructor
  · rintro h input r ⟨haccepts, rfl⟩
    exact h input haccepts
  · intro h input haccepts
    exact h input _ ⟨haccepts, rfl⟩

/-- Every part of a schema has a place in it. To put a looser schema in the place rejects nothing
that was accepted, and if it has the same results and the place is not below a union, neither
changes a result. So it is with a part that accepts null or absence besides. -/
theorem evaluate_fill_of_looser :
    (∀ part whole : Schema, part.IsPart whole ↔ ∃ place : List Frame, fill place part = whole) ∧
    (∀ (s s' : Schema) (place : List Frame),
      (∀ input, (s.evaluate input).isValid = true → (s'.evaluate input).isValid = true) →
        (∀ input, ((fill place s).evaluate input).isValid = true →
          ((fill place s').evaluate input).isValid = true) ∧
        ((∀ input r, (s.evaluate input).outcome = .valid r →
            (s'.evaluate input).outcome = .valid r) → OutsideUnions place →
          ∀ input r, ((fill place s).evaluate input).outcome = .valid r →
            ((fill place s').evaluate input).outcome = .valid r)) ∧
    ∀ (s s' : Schema) (place : List Frame), s' = s.nullable ∨ s' = s.optional →
      (∀ input, ((fill place s).evaluate input).isValid = true →
        ((fill place s').evaluate input).isValid = true) ∧
      (OutsideUnions place → ∀ input r, ((fill place s).evaluate input).outcome = .valid r →
        ((fill place s').evaluate input).outcome = .valid r) := by
  refine ⟨fun _ _ => isPart_iff, fun s s' place hlooser => ⟨?_, fun hsame hplace => ?_⟩,
    fun s s' place hmore => ?_⟩
  · exact looser_iff_evaluate.1 ((looser_iff_evaluate.2 hlooser).fill place)
  · exact extends_iff_evaluate.1 ((extends_iff_evaluate.2 hsame).fill hplace)
  · have hextends : s'.Extends s := by
      rcases hmore with rfl | rfl
      · exact s.nullable_extends
      · exact s.optional_extends
    exact ⟨looser_iff_evaluate.1 (hextends.looser.fill place),
      fun hplace => extends_iff_evaluate.1 (hextends.fill hplace)⟩

/-- A number, a text or nothing. -/
def numberOrText : Schema := (union2 (primitive .number) (primitive .string)).optional

/-- A number is taken for the first member and left as it is. -/
theorem numberOrText_extends : numberOrText.Extends (primitive .number) := by
  intro input haccepts
  have haccepts' := haccepts
  cases haccepts with
  | null h | undefined h => cases h
  | leaf present _ =>
    refine ⟨.union present (by simp [unionMembers]) haccepts', ?_⟩
    rw [numberOrText, optional, union2, Schema.withModifiers, result_union _ _ _ _ present,
      if_pos haccepts']

/-- The values of a record with two keys, in an object that has a name as well. -/
def scoresPlace : List Frame :=
  [.property [] "scores" [("name", primitive .string)] .none,
    .values (.options [.string "a", .string "b"]) .none]

/-- An object with two scores and a name. -/
def namedScores : Value :=
  .object [("name", .string "n"),
    ("scores", .object [("b", .number .zero), ("a", .number .zero)])]

/-- The scores come out the same if they may be texts or missing, and also where they are the
second choice behind a number and null is allowed besides. -/
theorem evaluate_fill_of_namedScores :
    (∀ input, ((primitive .number).evaluate input).isValid = true →
      (numberOrText.evaluate input).isValid = true) ∧
    (∀ input r, ((primitive .number).evaluate input).outcome = .valid r →
      (numberOrText.evaluate input).outcome = .valid r) ∧
    OutsideUnions scoresPlace ∧
    ((fill scoresPlace (primitive .number)).evaluate namedScores).outcome =
      .valid (.object [("scores", .object [("b", .number .zero), ("a", .number .zero)]),
        ("name", .string "n")]) ∧
    ((fill scoresPlace numberOrText).evaluate namedScores).isValid = true ∧
    ((fill scoresPlace numberOrText).evaluate namedScores).outcome =
      .valid (.object [("scores", .object [("b", .number .zero), ("a", .number .zero)]),
        ("name", .string "n")]) ∧
    ((fill (.secondMember (primitive .number) Option.none .none :: scoresPlace)
      (primitive .number).nullable).evaluate namedScores).isValid = true := by
  have hlooser := looser_iff_evaluate.1 numberOrText_extends.looser
  have hsame := extends_iff_evaluate.1 numberOrText_extends
  have hplace : OutsideUnions scoresPlace := by simp [OutsideUnions, scoresPlace, Frame.isUnion]
  have hvalid : ((fill scoresPlace (primitive .number)).evaluate namedScores).outcome =
      .valid (.object [("scores", .object [("b", .number .zero), ("a", .number .zero)]),
        ("name", .string "n")]) := rfl
  obtain ⟨-, hfill, hmore⟩ := evaluate_fill_of_looser
  obtain ⟨haccepts, hresults⟩ := hfill (primitive .number) numberOrText scoresPlace hlooser
  refine ⟨hlooser, hsame, hplace, hvalid, haccepts _ (by rfl), ?_, ?_⟩
  · exact hresults hsame hplace _ _ hvalid
  · exact (hmore (primitive .number) _ (.secondMember (primitive .number) Option.none .none ::
      scoresPlace) (.inl rfl)).1 _ (by rfl)

end Schema

end Conform

import Conform.Proofs.Stability

/-!
# The parts of a validated value

What a validation tells about a part of its input is what it would tell about the part alone.
`walk_partAt` says so of every part that declared properties of objects and positions in lists and
tuples lead to, as long as each value on the way has the shape that is asked of it: in the tree is
the tree of the part, whatever has failed elsewhere, and in a result is the result of the part.

`Schema.LeadsTo` is one segment of such a way, and `LeadsTo.verdict_part` says what it means for
the verdict. The way as a whole is by induction. An object leaves out the properties that come out
absent, and what it leaves out reads as absent again (`get_result_object`).
-/

namespace Conform

/-- A segment of the way to a part: the name of a property or the position of an item. -/
inductive Segment where
  | property (name : String)
  | item (position : Nat)
  deriving DecidableEq

/-- The part of a value behind a segment; absent if there is none. -/
def Value.part (segment : Segment) (value : Value) : Value :=
  match segment, value with
  | .property name, value => value.get name
  | .item position, .array items => (items[position]?).getD .undefined
  | .item _, _ => .undefined

/-- The part of a value at the end of a way. -/
def Value.partAt (location : List Segment) (value : Value) : Value :=
  location.foldl (fun v segment => v.part segment) value

/-- The tree behind a segment. -/
def Validation.part (segment : Segment) (tree : Validation) : Validation :=
  match segment with
  | .property name => tree.prop name
  | .item position => tree.index position

/-- The tree at the end of a way. -/
def Validation.partAt (location : List Segment) (tree : Validation) : Validation :=
  location.foldl (fun t segment => t.part segment) tree

namespace Schema

/-- The value has the shape that the schema asks for, and the part behind the segment is walked
under the child. -/
inductive LeadsTo : Schema → Value → Segment → Schema → Prop
  | property {properties : List (String × Schema)} {m : Modifiers}
    {entries : List (String × Value)} {name : String} {child : Schema}
    (hp : (name, child) ∈ properties) :
    LeadsTo (.object properties m) (.object entries) (.property name) child
  | element {element : Schema} {m : Modifiers} {items : List Value} {position : Nat}
    (hposition : position < items.length) :
    LeadsTo (.array element m) (.array items) (.item position) element
  | item {schemas : List Schema} {m : Modifiers} {items : List Value} {position : Nat}
    {child : Schema} (length : items.length = schemas.length)
    (hposition : schemas[position]? = some child) :
    LeadsTo (.tuple schemas m) (.array items) (.item position) child

/-- Each segment of the way leads on from the part before it, at last to the schema `sub`. -/
inductive Reaches : Schema → Value → List Segment → Schema → Prop
  | here {schema : Schema} {input : Value} : Reaches schema input [] schema
  | further {schema next sub : Schema} {input : Value} {segment : Segment}
    {location : List Segment} (h : LeadsTo schema input segment next)
    (rest : Reaches next (input.part segment) location sub) :
    Reaches schema input (segment :: location) sub

/-- The child that a segment leads to is one of the children. -/
theorem LeadsTo.mem_children {schema child : Schema} {input : Value} {segment : Segment}
    (h : LeadsTo schema input segment child) : child ∈ schema.children := by
  cases h with
  | property hp => exact mem_children_object hp _
  | element => exact List.mem_singleton_self _
  | item _ hposition => exact List.mem_of_getElem? hposition

/-- A position in a list that is walked leads to the part there, in the tree and in a result. -/
theorem verdict_part_list {schema : Schema} {input : Value} {parts : List (Schema × Value)}
    (h : schema.listParts? input = some parts) {position : Nat} {part : Schema × Value}
    (hpart : parts[position]? = some part) :
    (schema.verdict input).validation.part (.item position) =
        (part.1.verdict (input.part (.item position))).validation ∧
      ∀ r, (schema.verdict input).outcome = .valid r →
        (part.1.verdict (input.part (.item position))).outcome =
          .valid (r.part (.item position)) := by
  have hinput : input.part (.item position) = part.2 := by
    rw [input_of_listParts h, Value.part, List.getElem?_map, hpart]
    rfl
  rw [hinput]
  refine ⟨?_, fun r hr => ?_⟩
  · rw [verdict_list h, Verdict.ofItems, List.map_map, Validation.part, Validation.index,
      List.getElem?_map, hpart]
    rfl
  · obtain ⟨haccepts, rfl⟩ := verdict_valid.1 hr
    have hmem := List.mem_of_getElem? hpart
    rw [result_list h, Value.part, List.getElem?_map, hpart]
    exact verdict_valid.2 ⟨(accepts_list h).1 haccepts part hmem, rfl⟩

/-- A declared name leads to the property, in the tree and in a result. -/
theorem verdict_part_object {properties : List (String × Schema)} {m : Modifiers}
    {entries : List (String × Value)} (hnames : Entries.Distinct properties) {name : String}
    {child : Schema} (hp : (name, child) ∈ properties) :
    ((object properties m).verdict (.object entries)).validation.part (.property name) =
        (child.verdict ((Value.object entries).get name)).validation ∧
      ∀ r, ((object properties m).verdict (.object entries)).outcome = .valid r →
        (child.verdict ((Value.object entries).get name)).outcome = .valid (r.get name) := by
  refine ⟨?_, fun r hr => ?_⟩
  · have hdistinct : Entries.Distinct (properties.map fun p =>
        (p.1, (p.2.verdict ((Value.object entries).get p.1)).validation)) :=
      Entries.distinct_map hnames _
    rw [verdict_object, Verdict.ofEntries, List.map_map, Validation.part, Validation.prop]
    exact congrArg (·.getD .clean)
      (Entries.get?_of_mem hdistinct (List.mem_map_of_mem hp))
  · obtain ⟨haccepts, rfl⟩ := verdict_valid.1 hr
    -- Also where the property comes out absent and is left out.
    rw [result_object, get_result_object hnames _ hp]
    exact verdict_valid.2 ⟨accepts_object.1 haccepts _ hp, rfl⟩

/-- Behind a segment, the tree is that of the part and a result that of the part. -/
theorem LeadsTo.verdict_part {schema child : Schema} {input : Value} {segment : Segment}
    (h : LeadsTo schema input segment child) (hnames : schema.NamesDistinct) :
    (schema.verdict input).validation.part segment =
        (child.verdict (input.part segment)).validation ∧
      ∀ r, (schema.verdict input).outcome = .valid r →
        (child.verdict (input.part segment)).outcome = .valid (r.part segment) := by
  cases h with
  | property hp => exact verdict_part_object hnames.here hp
  | @element child m items position hposition =>
    have hparts : (Schema.array child m).listParts? (.array items) =
        some (items.map (child, ·)) := rfl
    have hpart : (items.map (child, ·))[position]? = some (child, items[position]) := by
      rw [List.getElem?_map, List.getElem?_eq_getElem hposition]
      rfl
    exact verdict_part_list hparts hpart
  | @item schemas m items position _ length hposition =>
    have hparts : (Schema.tuple schemas m).listParts? (.array items) =
        some (schemas.zip items) := if_pos length
    have hitem : position < items.length := by
      rw [length]
      exact (List.getElem?_eq_some_iff.1 hposition).1
    have hpart : (schemas.zip items)[position]? = some (child, items[position]) :=
      List.getElem?_zip_eq_some.2 ⟨hposition, List.getElem?_eq_getElem hitem⟩
    exact verdict_part_list hparts hpart

/-- At the end of a way, the tree is that of the part and a result that of the part. -/
theorem Reaches.verdict_partAt {schema sub : Schema} {input : Value} {location : List Segment}
    (h : Reaches schema input location sub) (hnames : schema.NamesDistinct) :
    (schema.verdict input).validation.partAt location =
        (sub.verdict (input.partAt location)).validation ∧
      ∀ r, (schema.verdict input).outcome = .valid r →
        (sub.verdict (input.partAt location)).outcome = .valid (r.partAt location) := by
  induction h with
  | here => exact ⟨rfl, fun _ hr => hr⟩
  | further h _ ih =>
    obtain ⟨htree, hresult⟩ := h.verdict_part hnames
    obtain ⟨htrees, hresults⟩ := ih (hnames.child h.mem_children)
    refine ⟨?_, fun r hr => hresults _ (hresult r hr)⟩
    rw [Validation.partAt, List.foldl_cons, htree]
    exact htrees

/-- A walk tells about a part what the walk of the part alone tells, at any paths and on any logs:
the tree at the end of a way is the tree of the part, and if there is a result, what it has there is
the result of the part. -/
theorem walk_partAt (schema sub : Schema) (input : Value) (location : List Segment)
    (hnames : schema.NamesDistinct) (h : schema.Reaches input location sub)
    (path subPath : String) (log subLog : Log) :
    (schema.walk input path log).1.validation.partAt location =
        (sub.walk (input.partAt location) subPath subLog).1.validation ∧
      ∀ r, (schema.walk input path log).1.outcome = .valid r →
        (sub.walk (input.partAt location) subPath subLog).1.outcome =
          .valid (r.partAt location) := by
  rw [walk_eq, walk_eq]
  exact h.verdict_partAt hnames

/-- A number, and lines of a text with a note that may be missing. -/
def invoice : Schema :=
  objectOf [("id", primitive .number), ("lines", listOf (tupleOf [primitive .string,
    objectOf [("note", (primitive .string).optional)]]))]

/-- An invoice of two lines. -/
def invoiceOf (id first note : Value) : Value :=
  .object [("lines", .array [first, .array [.string "b", .object [("note", note)]]]), ("id", id)]

/-- The way to the note of the second line. -/
def secondNote : List Segment := [.property "lines", .item 1, .item 1, .property "note"]

/-- The way leads to the note, whatever the number and the first line are. -/
theorem reaches_secondNote (id first note : Value) :
    invoice.Reaches (invoiceOf id first note) secondNote (primitive .string).optional := by
  refine .further (.property (List.mem_of_getElem? (i := 1) rfl)) ?_
  refine .further (.element (Nat.one_lt_two : 1 < [_, _].length)) ?_
  refine .further (.item (rfl : [_, _].length = 2) rfl) ?_
  exact .further (.property List.mem_cons_self) .here

/-- The tree tells of the note what is wrong with it, beside a text in place of the number and no
first line; and from a result in which the note is left out it reads as absent. -/
theorem walk_partAt_secondNote :
    invoice.NamesDistinct ∧
      invoice.Reaches (invoiceOf (.string "x") .null (.bool true)) secondNote
        (primitive .string).optional ∧
      (invoice.walk (invoiceOf (.string "x") .null (.bool true)) "root"
        #[]).1.validation.partAt secondNote =
          ((primitive .string).optional.walk (.bool true) "note" #[]).1.validation ∧
      invoice.Reaches (invoiceOf (.number .zero) (.array [.string "a", .object []]) .undefined)
        secondNote (primitive .string).optional ∧
      (invoice.walk (invoiceOf (.number .zero) (.array [.string "a", .object []]) .undefined) "root"
        #[]).1.outcome = .valid (.object [("id", .number .zero), ("lines", .array
          [.array [.string "a", .object []], .array [.string "b", .object []]])]) ∧
      ((primitive .string).optional.walk .undefined "note" #[]).1.outcome =
        .valid ((Value.object [("id", .number .zero), ("lines", .array
          [.array [.string "a", .object []], .array [.string "b", .object []]])]).partAt
            secondNote) := by
  have hnames : invoice.NamesDistinct := by decide
  have hbroken := reaches_secondNote (.string "x") .null (.bool true)
  have hwhole := reaches_secondNote (.number .zero) (.array [.string "a", .object []]) .undefined
  have hvalid : (invoice.walk (invoiceOf (.number .zero) (.array [.string "a", .object []])
      .undefined) "root" #[]).1.outcome = .valid (.object [("id", .number .zero), ("lines", .array
        [.array [.string "a", .object []], .array [.string "b", .object []]])]) := rfl
  refine ⟨hnames, hbroken, ?_, hwhole, hvalid, ?_⟩
  · exact (walk_partAt invoice _ _ secondNote hnames hbroken "root" "note" #[] #[]).1
  · exact (walk_partAt invoice _ _ secondNote hnames hwhole "root" "note" #[] #[]).2 _ hvalid

end Schema

end Conform

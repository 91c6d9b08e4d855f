import Conform.Proofs.Loading

/-!
# Schema documents read from their own JSON

A document is written as one flat map for each node: the type first, then the fields of the type
and the flags last. `decode_nodeToJson` says how such a map is read: the type and the flags have
names that no field has, so the fields are read as if they stood alone, and a node comes
back if its fields do. The induction along documents has then one short case for each type.

The only thing that JSON loses is a number literal that is not finite, which is written as null.
`readIf` keeps this apart: the lemmas say that something is read if its numbers are finite, and that
reading it ends with the error of a literal if they are not. `decode_toJson` is the round trip.
-/

namespace Conform

/-! ## Literals -/

/-- What is read if the numbers in it are finite, and the error of a literal if they are not. -/
def readIf {α : Type} (finite : Bool) (a : α) : Except Mismatch α :=
  if finite then .ok a else .error (.noVariant "Literal")

/-- What is made of something that is read if its numbers are finite, is too. -/
theorem map_readIf {α β : Type} (finite : Bool) (a : α) (f : α → β) :
    (readIf finite a).map f = readIf finite (f a) := by
  cases finite <;> rfl

/-- Two things are read one after the other if the numbers in both are finite. -/
theorem bind_readIf {α β : Type} {first second : Bool} {a : α} {b : β} {f : α → Except Mismatch β}
    (h : f a = readIf second b) : readIf first a >>= f = readIf (first && second) b := by
  cases first with
  | false => rfl
  | true => exact h

namespace Literal

/-- Whether the literal is not a number that JSON does not have. -/
def isFinite : Literal → Bool
  | .string _ => true
  | .number d => d.isFinite

/-- A literal is read from its JSON if it is finite. -/
theorem decode_ofJson (l : Literal) : decode (.ofJson l.toJson) = readIf l.isFinite l := by
  cases l with
  | string s => rfl
  | number d =>
    rw [toJson, isFinite]
    cases d.isFinite <;> rfl

/-- Literals are read from their JSON if all of them are finite. -/
theorem decodeList_ofJson (literals : List Literal) :
    decodeList (.ofJson (.array (literals.map toJson))) =
      readIf (literals.all isFinite) literals := by
  have hitems : (Markup.ofItems (literals.map toJson)).mapM decode =
      readIf (literals.all isFinite) literals := by
    induction literals with
    | nil => rfl
    | cons l rest ih =>
      rw [List.map_cons, Markup.ofItems, List.mapM_cons, decode_ofJson, ih, List.all_cons]
      exact bind_readIf (map_readIf _ rest (l :: ·))
  rw [Markup.ofJson]
  exact hitems

end Literal

/-! ## Members of a node -/

namespace DocumentType

/-- A type is read from its name. -/
theorem decode_name (type : DocumentType) : decode (.text type.name) = .ok type := by
  cases type with
  | primitive p => cases p <;> rfl
  | _ => rfl

/-- The names that every node has are not those of fields. -/
theorem field?_eq_none (type : DocumentType) {name : String}
    (h : name ∈ ["type", "nullable", "optional"]) : type.field? (.text name) = none := by
  rcases List.mem_cons.1 h with rfl | h
  · cases type <;> rfl
  · rcases List.mem_cons.1 h with rfl | h
    · cases type <;> rfl
    · rw [List.mem_singleton.1 h]
      cases type <;> rfl

/-- The name of a field is none that every node has. -/
theorem name_ne_of_field? {type : DocumentType} {name other : String}
    (h : (type.field? (.text name)).isSome) (hother : other ∈ ["type", "nullable", "optional"]) :
    (Markup.Key.text name) ≠ .text other := by
  rintro hname
  rw [hname, type.field?_eq_none hother] at h
  cases h

/-- A type that is found stays the type where no other member tells one. -/
theorem search_some (type : DocumentType) {members : List (Markup.Key × Markup)}
    (h : ∀ member ∈ members, member.1 ≠ .text "type") : search (some type) members = .ok type := by
  induction members with
  | nil => rfl
  | cons member rest ih =>
    obtain ⟨hmember, hrest⟩ := List.forall_mem_cons.1 h
    rw [search, if_neg hmember]
    exact ih hrest

end DocumentType

/-- The members of a map are those of the JSON object, under their names. -/
theorem Markup.ofMembers_eq (members : List (String × Json)) :
    Markup.ofMembers members = members.map fun m => (.text m.1, .ofJson m.2) := by
  induction members with
  | nil => rfl
  | cons m rest ih => rw [Markup.ofMembers, ih, List.map_cons]

namespace Document

/-- The flags are read behind members that are none. -/
theorem decodeModifiers_append {fields : List (Markup.Key × Markup)}
    (h : ∀ f ∈ fields, f.1 ≠ .text "nullable" ∧ f.1 ≠ .text "optional")
    (members : List (Markup.Key × Markup)) :
    decodeModifiers none none (fields ++ members) = decodeModifiers none none members := by
  induction fields with
  | nil => rfl
  | cons f rest ih =>
    obtain ⟨⟨hnullable, hoptional⟩, hrest⟩ := List.forall_mem_cons.1 h
    rw [List.cons_append, decodeModifiers, if_neg hnullable, if_neg hoptional]
    exact ih hrest

/-- Fields are read in front of members that are none. -/
theorem decodeFields_append {type : DocumentType} {members : List (Markup.Key × Markup)}
    (h : ∀ member ∈ members, type.field? member.1 = none)
    (done : List (String × FieldContent)) (fields : List (Markup.Key × Markup)) :
    decodeFields type done (fields ++ members) = decodeFields type done fields := by
  induction fields generalizing done with
  | nil =>
    induction members with
    | nil => rfl
    | cons member rest ih =>
      obtain ⟨key, value⟩ := member
      obtain ⟨hmember, hrest⟩ := List.forall_mem_cons.1 h
      rw [List.nil_append, decodeFields_cons, hmember]
      exact ih hrest
  | cons f rest ih =>
    obtain ⟨key, value⟩ := f
    simp only [List.cons_append, decodeFields_cons, ih]

/-- The members of a node: the type in front of the fields and the flags behind them. -/
def nodeMembers (type : DocumentType) (fields : List (String × Json)) (m : Modifiers) :
    List (Markup.Key × Markup) :=
  (.text "type", .text type.name) :: (Markup.ofMembers fields ++
    [(.text "nullable", .bool m.nullable), (.text "optional", .bool m.optional)])

/-- The JSON of a node is a map of its members. -/
theorem ofJson_nodeToJson (type : DocumentType) (fields : List (String × Json)) (m : Modifiers) :
    Markup.ofJson (nodeToJson type.name fields m) = .map (nodeMembers type fields m) := by
  unfold nodeToJson nodeMembers
  rw [Markup.ofJson, Markup.ofMembers_eq, Markup.ofMembers_eq, List.map_append]
  rfl

section Node

variable {type : DocumentType} {fields : List (String × Json)}

/-- No field has the name of a member that every node has. -/
theorem ne_of_mem_fields (hnames : ∀ f ∈ fields, (type.field? (.text f.1)).isSome) {other : String}
    (hother : other ∈ ["type", "nullable", "optional"]) :
    ∀ f ∈ Markup.ofMembers fields, f.1 ≠ .text other := by
  rw [Markup.ofMembers_eq]
  exact List.forall_mem_map.2 fun f hf => type.name_ne_of_field? (hnames f hf) hother

/-- The members of a node are known by names. -/
theorem checkKeys_nodeMembers (m : Modifiers) : checkKeys (nodeMembers type fields m) = .ok () := by
  unfold nodeMembers
  rw [Markup.ofMembers_eq, checkKeys]
  · induction fields with
    | nil => rfl
    | cons f rest ih => exact ih
  · exact nofun

/-- The type of a node is found at its front. -/
theorem search_nodeMembers (hnames : ∀ f ∈ fields, (type.field? (.text f.1)).isSome)
    (m : Modifiers) : DocumentType.search none (nodeMembers type fields m) = .ok type := by
  unfold nodeMembers
  rw [DocumentType.search, if_pos rfl, DocumentType.decode_name]
  apply DocumentType.search_some
  rw [List.forall_mem_append]
  exact ⟨ne_of_mem_fields hnames (by decide), by simp⟩

/-- The fields of a node are read as if they stood alone. -/
theorem decodeFields_nodeMembers (m : Modifiers) :
    decodeFields type [] (nodeMembers type fields m) =
      decodeFields type [] (Markup.ofMembers fields) := by
  unfold nodeMembers
  rw [decodeFields_cons, type.field?_eq_none (by decide)]
  apply decodeFields_append
  simp [type.field?_eq_none]

/-- The flags of a node are read at its end. -/
theorem decodeModifiers_nodeMembers (hnames : ∀ f ∈ fields, (type.field? (.text f.1)).isSome)
    (m : Modifiers) : decodeModifiers none none (nodeMembers type fields m) = .ok m := by
  unfold nodeMembers
  rw [← List.cons_append, decodeModifiers_append]
  · rfl
  · refine List.forall_mem_cons.2 ⟨by simp, fun f hf => ?_⟩
    exact ⟨ne_of_mem_fields hnames (by decide) f hf, ne_of_mem_fields hnames (by decide) f hf⟩

end Node

/-- A node is read from its JSON if its fields are, and their contents make up a document of its
type. -/
theorem decode_nodeToJson (type : DocumentType) {fields : List (String × Json)}
    {contents : List (String × FieldContent)} {make : Modifiers → Document} {finite : Bool}
    (hnames : ∀ f ∈ fields, (type.field? (.text f.1)).isSome)
    (hfields : decodeFields type [] (Markup.ofMembers fields) = readIf finite contents)
    (hmake : assemble type contents = .ok make) (m : Modifiers) :
    decode (.ofJson (nodeToJson type.name fields m)) = readIf finite (make m) := by
  rw [ofJson_nodeToJson, decode, checkKeys_nodeMembers, search_nodeMembers hnames,
    decodeModifiers_nodeMembers hnames]
  show (decodeFields type [] (nodeMembers type fields m) >>= fun contents =>
    assemble type contents >>= fun make => pure (make m)) = readIf finite (make m)
  rw [decodeFields_nodeMembers, hfields]
  cases finite with
  | false => rfl
  | true =>
    show (assemble type contents >>= fun make => pure (make m)) = .ok (make m)
    rw [hmake]
    rfl

/-- A field is read in its shape in front of the others. -/
theorem decodeFields_field {type : DocumentType} {done contents : List (String × FieldContent)}
    {name : String} {shape : FieldShape} {member : Json} {rest : List (String × Json)}
    {found : FieldContent} {first second : Bool}
    (hfield : type.field? (.text name) = some (name, shape))
    (hnew : Entries.contains name done = false)
    (hfound : decodeContent (.ofJson member) shape = readIf first found)
    (hrest : decodeFields type (done ++ [(name, found)]) (Markup.ofMembers rest) =
      readIf second contents) :
    decodeFields type done (Markup.ofMembers ((name, member) :: rest)) =
      readIf (first && second) contents := by
  rw [Markup.ofMembers, decodeFields_cons, hfield]
  simp only [hnew, Bool.false_eq_true, if_false, hfound]
  exact bind_readIf hrest

/-- A node with one field is read from its JSON if the field is read in its shape. -/
theorem decode_oneField (type : DocumentType) {name : String} {shape : FieldShape} {member : Json}
    {found : FieldContent} {make : Modifiers → Document} {finite : Bool}
    (hfield : type.field? (.text name) = some (name, shape))
    (hfound : decodeContent (.ofJson member) shape = readIf finite found)
    (hmake : assemble type [(name, found)] = .ok make) (m : Modifiers) :
    decode (.ofJson (nodeToJson type.name [(name, member)] m)) = readIf finite (make m) := by
  have hname : ∀ f ∈ [(name, member)], (type.field? (.text f.1)).isSome := by
    simp [hfield]
  have hread : decodeFields type [] (Markup.ofMembers [(name, member)]) =
      readIf (finite && true) [(name, found)] := decodeFields_field hfield rfl hfound rfl
  rw [Bool.and_true] at hread
  exact decode_nodeToJson type hname hread hmake m

/-- A document is the content of its field. -/
theorem decodeContent_document {document : Document} {member : Json} {finite : Bool}
    (h : decode (.ofJson member) = readIf finite document) :
    decodeContent (.ofJson member) .document = readIf finite (.document document) := by
  rw [decodeContent, h, map_readIf]

/-- A list of documents is the content of its field. -/
theorem decodeContent_documents {documents : List Document} {items : List Json} {finite : Bool}
    (h : decodeItems (Markup.ofItems items) = readIf finite documents) :
    decodeContent (.ofJson (.array items)) .documents = readIf finite (.documents documents) := by
  rw [Markup.ofJson, decodeContent, h, map_readIf]

/-! ## Documents -/

mutual

/-- All the documents in a document, with those of the keys of records. -/
def parts (document : Document) : List Document :=
  document ::
    match document with
    | .primitive _ _ | .options _ _ | .parser _ _ => []
    | .union members _ => itemsParts members
    | .array items _ => parts items
    | .tuple items _ => itemsParts items
    | .object properties _ => propertiesParts properties
    | .record keys values _ => parts keys ++ parts values

/-- The documents in several documents. -/
def itemsParts : List Document → List Document
  | [] => []
  | document :: rest => parts document ++ itemsParts rest

/-- The documents in the documents of properties. -/
def propertiesParts : List (String × Document) → List Document
  | [] => []
  | (_, document) :: rest => parts document ++ propertiesParts rest

end

/-- The literals that the document itself lists. -/
def ownLiterals : Document → List Literal
  | .options values _ => values
  | _ => []

/-- Whether the numbers among the literals of the document itself are finite. -/
def ownFinite (document : Document) : Bool := document.ownLiterals.all Literal.isFinite

mutual

/-- A document in which no object declares a name twice is read from its JSON if its number literals
are finite. -/
theorem decode_ofJson_toJson : ∀ document : Document,
    (∀ part ∈ document.parts, part.declaredNames.Nodup) →
      decode (.ofJson document.toJson) = readIf (document.parts.all ownFinite) document
  | .primitive p m, _ => by
    rw [toJson, parts]
    exact decode_nodeToJson (.primitive p) (by simp) rfl rfl m
  | .options values m, _ => by
    have hvalues : decodeContent (.ofJson (.array (values.map Literal.toJson))) .literals =
        readIf (values.all Literal.isFinite) (.literals values) := by
      rw [decodeContent, Literal.decodeList_ofJson, map_readIf]
    rw [toJson, parts, List.all_cons, List.all_nil, Bool.and_true]
    exact decode_oneField .options rfl hvalues rfl m
  | .parser name m, _ => by
    rw [toJson, parts]
    exact decode_oneField .parser rfl rfl rfl m
  | .union members m, h => by
    rw [parts, List.forall_mem_cons] at h
    rw [toJson, parts]
    have hmembers := decodeContent_documents (decodeItems_toJson members h.2)
    exact decode_oneField .union rfl hmembers rfl m
  | .array items m, h => by
    rw [parts, List.forall_mem_cons] at h
    rw [toJson, parts]
    have hitems := decodeContent_document (decode_ofJson_toJson items h.2)
    exact decode_oneField .array rfl hitems rfl m
  | .tuple items m, h => by
    rw [parts, List.forall_mem_cons] at h
    rw [toJson, parts]
    have hitems := decodeContent_documents (decodeItems_toJson items h.2)
    exact decode_oneField .tuple rfl hitems rfl m
  | .object properties m, h => by
    rw [parts, List.forall_mem_cons] at h
    rw [toJson, parts]
    have hproperties : decodeContent (.ofJson (.object (propertiesToJson properties))) .properties =
        readIf ((propertiesParts properties).all ownFinite) (.properties properties) := by
      rw [Markup.ofJson, decodeContent, decodeProperties_toJson properties [] h.1 h.2, map_readIf]
      rfl
    exact decode_oneField .object rfl hproperties rfl m
  | .record keys values m, h => by
    rw [parts, List.forall_mem_cons, List.forall_mem_append] at h
    rw [toJson, parts, List.all_cons, List.all_append]
    -- Of the two fields that hold a document the keys come first.
    have hkeys := decodeContent_document (decode_ofJson_toJson keys h.2.1)
    have hvalues := decodeContent_document (decode_ofJson_toJson values h.2.2)
    have hread : decodeFields .record []
        (Markup.ofMembers [("keys", keys.toJson), ("values", values.toJson)]) =
          readIf (keys.parts.all ownFinite && (values.parts.all ownFinite && true))
            [("keys", .document keys), ("values", .document values)] :=
      decodeFields_field rfl rfl hkeys (decodeFields_field rfl rfl hvalues rfl)
    rw [Bool.and_true] at hread
    exact decode_nodeToJson .record (by simp; decide) hread rfl m

/-- Documents in a list are read from their JSON, in order. -/
theorem decodeItems_toJson : ∀ documents : List Document,
    (∀ part ∈ itemsParts documents, part.declaredNames.Nodup) →
      decodeItems (Markup.ofItems (itemsToJson documents)) =
        readIf ((itemsParts documents).all ownFinite) documents
  | [], _ => rfl
  | document :: rest, h => by
    rw [itemsParts, List.forall_mem_append] at h
    rw [itemsToJson, Markup.ofItems, decodeItems, itemsParts, List.all_append,
      decode_ofJson_toJson document h.1, decodeItems_toJson rest h.2]
    exact bind_readIf (map_readIf _ rest (document :: ·))

/-- Properties are read from their JSON, in order, behind those that are there. -/
theorem decodeProperties_toJson : ∀ properties done : List (String × Document),
    Entries.Distinct (done ++ properties) →
      (∀ part ∈ propertiesParts properties, part.declaredNames.Nodup) →
        decodeProperties done (Markup.ofMembers (propertiesToJson properties)) =
          readIf ((propertiesParts properties).all ownFinite) (done ++ properties)
  | [], done, _, _ => by
    rw [List.append_nil]
    rfl
  | (name, document) :: rest, done, hdistinct, h => by
    rw [propertiesParts, List.forall_mem_append] at h
    have hnew : name ∉ Entries.keys done := by
      intro hname
      rw [Entries.Distinct, Entries.keys, List.map_append, List.nodup_append] at hdistinct
      exact hdistinct.2.2 name hname name List.mem_cons_self rfl
    rw [List.append_cons] at hdistinct ⊢
    rw [propertiesToJson, Markup.ofMembers, decodeProperties, propertiesParts, List.all_append,
      decode_ofJson_toJson document h.1]
    apply bind_readIf
    -- A new name goes to the end, so that the properties stay in order.
    rw [Entries.insert_of_notMem hnew]
    exact decodeProperties_toJson rest _ hdistinct h.2

end

/-! ## Round trips -/

/-- A document in which no object declares a name twice comes back from its JSON exactly if its
number literals are finite: then it is the same, in all nodes, modifiers, literals and orders, and
otherwise reading it ends at a literal that is none. -/
theorem decode_toJson (document : Document)
    (hnames : ∀ part ∈ document.parts, part.declaredNames.Nodup) :
    ((∀ part ∈ document.parts, ∀ l ∈ part.ownLiterals, l.isFinite = true) →
      decode (.ofJson document.toJson) = .ok document) ∧
    ((∃ part ∈ document.parts, ∃ l ∈ part.ownLiterals, l.isFinite = false) →
      decode (.ofJson document.toJson) = .error (.noVariant "Literal")) := by
  rw [decode_ofJson_toJson document hnames]
  constructor
  · intro hfinite
    have hall : document.parts.all ownFinite = true := by
      simpa [ownFinite] using hfinite
    rw [hall]
    rfl
  · rintro ⟨part, hpart, l, hl, hinfinite⟩
    have hall : document.parts.all ownFinite = false := by
      rw [List.all_eq_false]
      refine ⟨part, hpart, ?_⟩
      rw [ownFinite, List.all_eq_true]
      intro hfinite
      rw [hfinite l hl] at hinfinite
      cases hinfinite
    rw [hall]
    rfl

/-- A document of an object with properties under the names of members of nodes, and literals that
differ only in being a text or a number. -/
def reservedNamesDocument : Document :=
  .object [("type", .options [.string "1", .number (.ofNat 1)] ⟨true, false⟩),
    ("nullable", .record (.options [.string "a"] .none)
      (.union [.parser "integer" .none, .array (.primitive .any .none) .none] .none) ⟨false, true⟩),
    ("values", .tuple [.primitive .string .none, .primitive .boolean ⟨true, true⟩] .none)] .none

/-- A document with a literal that is not a number. -/
def nanDocument : Document := .array (.options [.string "a", .number .nan] .none) .none

/-- Names that nodes use themselves may be declared. A literal that is not a number is lost. -/
theorem decode_toJson_reservedNamesDocument :
    (∀ part ∈ reservedNamesDocument.parts, part.declaredNames.Nodup) ∧
      (∀ part ∈ reservedNamesDocument.parts, ∀ l ∈ part.ownLiterals, l.isFinite = true) ∧
      decode (.ofJson reservedNamesDocument.toJson) = .ok reservedNamesDocument ∧
      (∀ part ∈ nanDocument.parts, part.declaredNames.Nodup) ∧
      (∃ part ∈ nanDocument.parts, ∃ l ∈ part.ownLiterals, l.isFinite = false) ∧
      decode (.ofJson nanDocument.toJson) = .error (.noVariant "Literal") := by
  have hnames : ∀ part ∈ reservedNamesDocument.parts, part.declaredNames.Nodup := by decide
  have hfinite : ∀ part ∈ reservedNamesDocument.parts, ∀ l ∈ part.ownLiterals,
      l.isFinite = true := by decide +kernel
  have hnames' : ∀ part ∈ nanDocument.parts, part.declaredNames.Nodup := by decide
  have hinfinite : ∃ part ∈ nanDocument.parts, ∃ l ∈ part.ownLiterals, l.isFinite = false := by
    decide
  exact ⟨hnames, hfinite, (decode_toJson _ hnames).1 hfinite, hnames', hinfinite,
    (decode_toJson _ hnames').2 hinfinite⟩

end Document

end Conform

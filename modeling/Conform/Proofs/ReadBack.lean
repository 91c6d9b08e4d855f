import Conform.Proofs.Faults

/-!
# Schemas read back as documents

A schema says all that its document says. `Schema.document?` reads a schema back as a document:
every node as the node of the same kind, with its literals, its children in order and its
modifiers, a parser by its label, and the check of a record's keys as a node without modifiers.
`document?_build` says that what is built of a document is read back as that very document and has
as many nodes, if the parsers of the registry have their names for labels. Registries are of this
kind that are made by registering parsers without labels, as that of the builtin parsers is.

The induction is along the document. Lists of documents are related to the lists of schemas that
they are built to by `List.Forall₂`, both where they are built and where they are read back.
-/

namespace Conform

/-! ## Labels -/

namespace Registry

/-- The label of every parser is the name that it is registered under. -/
def LabelledByName (registry : Registry) : Prop :=
  ∀ name p, registry.get? name = some p → p.label = some name

/-- Registers parsers one after another. -/
def registerAll (registry : Registry) (parsers : List (String × Parser)) : Registry :=
  parsers.foldl (fun registry entry => registry.register entry.1 entry.2) registry

/-- A parser without a label is labelled by the name that it is registered under. -/
theorem LabelledByName.register {registry : Registry} (h : registry.LabelledByName) (name : String)
    {p : Parser} (hp : p.label = none) : (registry.register name p).LabelledByName := by
  intro other q hq
  rw [get?_register] at hq
  by_cases hname : name = other
  · rw [if_pos hname] at hq
    obtain rfl := Option.some.inj hq
    rw [Parser.underName, hp, Option.getD_none, hname]
  · -- Under other names there is what was there before.
    rw [if_neg hname] at hq
    exact h other q hq

/-- Parsers without labels are all labelled by the names that they are registered under. -/
theorem LabelledByName.registerAll {registry : Registry} (h : registry.LabelledByName)
    {parsers : List (String × Parser)} (hparsers : ∀ entry ∈ parsers, entry.2.label = none) :
    (registry.registerAll parsers).LabelledByName := by
  induction parsers generalizing registry with
  | nil => exact h
  | cons entry rest ih =>
    obtain ⟨hentry, hrest⟩ := List.forall_mem_cons.1 hparsers
    exact ih (h.register entry.1 hentry) hrest

/-- Without parsers there is none with another label. -/
theorem labelledByName_empty : empty.LabelledByName :=
  fun _ _ h => nomatch h

/-- The builtin parsers are labelled by their names. -/
theorem labelledByName_builtins : builtins.LabelledByName := by
  have hbuiltins : builtins = empty.registerAll
      [("integer", .integer), ("non_empty_string", .nonEmptyString),
        ("trimmed_string", .trimmedString), ("numeric_string", .numericString)] := rfl
  rw [hbuiltins]
  refine labelledByName_empty.registerAll ?_
  simp [Parser.integer, Parser.nonEmptyString, Parser.trimmedString, Parser.numericString,
    Parser.ofFunction]

end Registry

/-! ## Reading back -/

/-- The document of a check of keys. -/
def KeyCheck.document : KeyCheck → Document
  | .primitive p => .primitive p .none
  | .options literals => .options literals .none

namespace Schema

mutual

/-- The document that describes the schema, in which labels stand for parsers. There is none if a
parser has no label. -/
def document? : Schema → Option Document
  | .leaf (.primitive p) m => some (.primitive p m)
  | .leaf (.options literals) m => some (.options literals m)
  | .leaf (.parser p) m => p.label.map fun name => .parser name m
  | .union first second third m => do
    let first ← document? first
    let second ← document? second
    let others ← thirdDocument? third
    return .union (first :: second :: others) m
  | .array element m => do return .array (← document? element) m
  | .tuple items m => do return .tuple (← itemsDocuments? items) m
  | .object properties m => do return .object (← propertiesDocuments? properties) m
  | .record keys values m => do return .record keys.document (← document? values) m

/-- The document of a third member, if there is one. -/
def thirdDocument? : Option Schema → Option (List Document)
  | none => some []
  | some member => do return [← document? member]

/-- The documents of several schemas. -/
def itemsDocuments? : List Schema → Option (List Document)
  | [] => some []
  | schema :: rest => do
    let document ← document? schema
    return document :: (← itemsDocuments? rest)

/-- The documents of properties. -/
def propertiesDocuments? : List (String × Schema) → Option (List (String × Document))
  | [] => some []
  | (name, schema) :: rest => do
    let document ← document? schema
    return (name, document) :: (← propertiesDocuments? rest)

end

/-- A schema reads back as the document and has as many nodes, wherever the document stands. -/
structure ReadsBack (schema : Schema) (document : Document) : Prop where
  document? : schema.document? = some document
  nodeCount : ∀ steps, schema.nodeCount = (document.sitesFrom steps).length

/-- Schemas that each read back as a document read back as the list of them. -/
theorem readsBack_items {schemas : List Schema} {documents : List Document}
    (h : List.Forall₂ (fun d s => s.ReadsBack d) documents schemas) :
    itemsDocuments? schemas = some documents ∧ ∀ steps step position,
      itemsNodeCount schemas = (Document.itemsSites steps step position documents).length := by
  induction h with
  | nil => exact ⟨rfl, fun _ _ _ => rfl⟩
  | @cons document schema documents schemas hfirst _ ih =>
    obtain ⟨hdocuments, hcount⟩ := ih
    constructor
    · rw [itemsDocuments?, hfirst.document?, hdocuments]
      rfl
    · intro steps step position
      rw [itemsNodeCount, Document.itemsSites, List.length_append, ← hcount, ← hfirst.nodeCount]

/-- Properties whose schemas read back as documents read back under their names. -/
theorem readsBack_properties {schemas : List (String × Schema)}
    {documents : List (String × Document)}
    (h : List.Forall₂ (Entries.SameKey fun d s => s.ReadsBack d) documents schemas) :
    propertiesDocuments? schemas = some documents ∧ ∀ steps,
      propertiesNodeCount schemas = (Document.propertiesSites steps documents).length := by
  induction h with
  | nil => exact ⟨rfl, fun _ => rfl⟩
  | cons hfirst _ ih =>
    obtain ⟨name, hfirst⟩ := hfirst
    obtain ⟨hdocuments, hcount⟩ := ih
    constructor
    · rw [propertiesDocuments?, hfirst.document?, hdocuments]
      rfl
    · intro steps
      rw [propertiesNodeCount, Document.propertiesSites, List.length_append, ← hcount,
        ← hfirst.nodeCount]

/-- A union reads back as the union of what its members read back as. -/
theorem document?_union (first second : Schema) (third : Option Schema) (m : Modifiers) :
    (union first second third m).document? =
      (itemsDocuments? (unionMembers first second third)).map fun members => .union members m := by
  -- Both sides read the members in turn, so only whether each one reads back matters.
  cases third with
  | none =>
    simp only [document?, thirdDocument?, itemsDocuments?, unionMembers]
    cases first.document? <;> cases second.document? <;> rfl
  | some member =>
    simp only [document?, thirdDocument?, itemsDocuments?, unionMembers, Option.toList_some]
    cases first.document? <;> cases second.document? <;> cases member.document? <;> rfl

/-- The nodes of a union are those of its members and itself. -/
theorem nodeCount_union (first second : Schema) (third : Option Schema) (m : Modifiers) :
    (union first second third m).nodeCount =
      1 + itemsNodeCount (unionMembers first second third) := by
  cases third <;> simp [nodeCount, optionNodeCount, itemsNodeCount, unionMembers, Nat.add_assoc]

end Schema

namespace Document

/-! ## Building -/

/-- A check of keys is built of its own document alone. -/
theorem eq_document_of_keyCheck {keys : Document} {path : String} {check : KeyCheck}
    (h : keys.keyCheck path = .ok check) : keys = check.document := by
  unfold keyCheck at h
  by_cases hmodifiers : keys.modifiers = .none
  · rw [if_neg (not_not.2 hmodifiers)] at h
    cases keys with
    | primitive p m =>
      obtain rfl := Except.ok.inj h
      exact congrArg (primitive p) hmodifiers
    | options values m =>
      obtain rfl := Except.ok.inj h
      exact congrArg (options values) hmodifiers
    | _ => cases h
  · rw [if_pos hmodifiers] at h
    cases h

/-- Items read back as what they are built of if this is so of whatever is built of each. -/
theorem readsBack_of_buildItems {registry : Registry} {path : String} {position : Nat}
    {documents : List Document} {schemas : List Schema}
    (h : buildItems registry path position documents = .ok schemas)
    (hreads : ∀ d ∈ documents, ∀ {path : String} {schema : Schema},
      d.buildAt registry path = .ok schema → schema.ReadsBack d) :
    List.Forall₂ (fun d s => s.ReadsBack d) documents schemas := by
  refine forall₂_imp_of_mem (forall₂_buildItems h) fun d hd s _ hbuilt => ?_
  obtain ⟨path, hbuild⟩ := hbuilt
  exact hreads d hd hbuild

/-- What is built of a document reads back as the document. -/
theorem readsBack_of_buildAt {registry : Registry} (hlabels : registry.LabelledByName)
    {document : Document} {path : String} {schema : Schema}
    (h : document.buildAt registry path = .ok schema) : schema.ReadsBack document := by
  -- What a document is made of is built at a path of its own, so the path is not fixed.
  induction document generalizing path schema with
  | node document ih =>
    cases document with
    | primitive p m =>
      obtain rfl := Except.ok.inj h
      exact ⟨rfl, fun _ => rfl⟩
    | options values m =>
      obtain rfl := Except.ok.inj h
      exact ⟨rfl, fun _ => rfl⟩
    | parser name m =>
      rw [buildAt] at h
      split at h
      · rename_i p hp
        obtain rfl := Except.ok.inj h
        refine ⟨?_, fun _ => rfl⟩
        rw [Schema.document?, hlabels name p hp]
        rfl
      · cases h
    | union members m =>
      rw [buildAt] at h
      obtain ⟨schemas, hschemas, h⟩ := bind_eq_ok.1 h
      have hmembers : List.Forall₂ (fun d s => s.ReadsBack d) members schemas :=
        readsBack_of_buildItems hschemas fun d hd => ih d hd
      obtain ⟨first, second, third, rfl, rfl⟩ := exists_of_unionOf h
      obtain ⟨hdocuments, hcount⟩ := Schema.readsBack_items hmembers
      refine ⟨?_, fun steps => ?_⟩
      · rw [Schema.document?_union, hdocuments]
        rfl
      · rw [Schema.nodeCount_union, sitesFrom, List.length_append, ← hcount, Nat.add_comm]
        rfl
    | array items m =>
      rw [buildAt] at h
      obtain ⟨element, helement, h⟩ := bind_eq_ok.1 h
      obtain rfl := Except.ok.inj h
      obtain ⟨hdocument, hcount⟩ := ih items (List.mem_singleton_self items) helement
      refine ⟨?_, fun steps => ?_⟩
      · rw [Schema.document?, hdocument]
        rfl
      · rw [Schema.nodeCount, sitesFrom, List.length_append, ← hcount, Nat.add_comm]
        rfl
    | tuple items m =>
      rw [buildAt] at h
      obtain ⟨schemas, hschemas, h⟩ := bind_eq_ok.1 h
      obtain rfl := Except.ok.inj h
      have hitems : List.Forall₂ (fun d s => s.ReadsBack d) items schemas :=
        readsBack_of_buildItems hschemas fun d hd => ih d hd
      obtain ⟨hdocuments, hcount⟩ := Schema.readsBack_items hitems
      refine ⟨?_, fun steps => ?_⟩
      · rw [Schema.document?, hdocuments]
        rfl
      · rw [Schema.nodeCount, sitesFrom, List.length_append, ← hcount, Nat.add_comm]
        rfl
    | object properties m =>
      rw [buildAt] at h
      obtain ⟨built, hbuilt, h⟩ := bind_eq_ok.1 h
      obtain rfl := Except.ok.inj h
      have hproperties : List.Forall₂ (Entries.SameKey fun d s => s.ReadsBack d) properties built :=
        forall₂_imp_of_mem (forall₂_buildProperties hbuilt) fun p hp q _ hsame => by
          obtain ⟨name, _, hbuild⟩ := hsame
          exact .intro name (ih _ (List.mem_map_of_mem (f := Prod.snd) hp) hbuild)
      obtain ⟨hdocuments, hcount⟩ := Schema.readsBack_properties hproperties
      refine ⟨?_, fun steps => ?_⟩
      · rw [Schema.document?, hdocuments]
        rfl
      · rw [Schema.nodeCount, sitesFrom, List.length_append, ← hcount, Nat.add_comm]
        rfl
    | record keys values m =>
      rw [buildAt] at h
      obtain ⟨check, hcheck, h⟩ := bind_eq_ok.1 h
      obtain ⟨built, hbuilt, h⟩ := bind_eq_ok.1 h
      obtain rfl := Except.ok.inj h
      obtain ⟨hdocument, hcount⟩ := ih values (List.mem_singleton_self values) hbuilt
      refine ⟨?_, fun steps => ?_⟩
      · rw [Schema.document?, hdocument, eq_document_of_keyCheck hcheck]
        rfl
      · -- The keys are one node, which comes before those of the values.
        rw [Schema.nodeCount, sitesFrom, List.length_append, List.length_cons, ← hcount]
        simp only [List.length_singleton]
        omega

/-- What is built of a document reads back as that document and has as many nodes, the keys of
records among them, if the parsers of the registry are labelled by their names. So they are in the
empty registry and in that of the builtin parsers, and they stay so when parsers without labels are
registered. -/
theorem document?_build :
    (∀ (registry : Registry) (document : Document) (schema : Schema), registry.LabelledByName →
      document.build registry = .ok schema →
        schema.document? = some document ∧ schema.nodeCount = document.sites.length) ∧
    Registry.empty.LabelledByName ∧ Registry.builtins.LabelledByName ∧
    ∀ (registry : Registry) (parsers : List (String × Parser)), registry.LabelledByName →
      (∀ entry ∈ parsers, entry.2.label = none) →
        (registry.registerAll parsers).LabelledByName := by
  refine ⟨fun registry document schema hlabels h => ?_, Registry.labelledByName_empty,
    Registry.labelledByName_builtins, fun registry parsers hlabels hparsers =>
      hlabels.registerAll hparsers⟩
  obtain ⟨hread, hcount⟩ := readsBack_of_buildAt hlabels h
  exact ⟨hread, hcount []⟩

/-- The builtin parsers and one that takes whatever there is. -/
def givenRegistry : Registry :=
  Registry.builtins.registerAll [("given", .ofFunction fun input => .ok input)]

/-- A document of an object with a code, and with prices under two names that may be missing. -/
def priceDocument : Document :=
  .object [("code", .parser "given" ⟨true, false⟩),
    ("prices", .record (.options [.string "net", .string "tax"] .none)
      (.union [.primitive .number .none, .parser "numeric_string" .none] ⟨false, true⟩)
      .none)] .none

/-- The seven nodes, one of them for the keys, come back with their modifiers and names. -/
theorem document?_build_priceDocument :
    (∀ entry ∈ [("given", Parser.ofFunction fun input => .ok input)], entry.2.label = none) ∧
      givenRegistry.LabelledByName ∧
      ∃ schema, priceDocument.build givenRegistry = .ok schema ∧
        schema.document? = some priceDocument ∧ schema.nodeCount = 7 := by
  have hparsers : ∀ entry ∈ [("given", Parser.ofFunction fun input => .ok input)],
      entry.2.label = none := List.forall_mem_singleton.2 rfl
  obtain ⟨hread, -, hbuiltins, hregister⟩ := document?_build
  have hlabels : givenRegistry.LabelledByName := hregister _ _ hbuiltins hparsers
  obtain ⟨hdocument, hcount⟩ := hread givenRegistry priceDocument _ hlabels rfl
  exact ⟨hparsers, hlabels, _, rfl, hdocument, hcount⟩

end Document

end Conform

import Conform.Document.Build
import Conform.Proofs.Failure
import Conform.Proofs.Induction
import Conform.Proofs.Matching

/-!
# Schemas and the documents they are built of

Every node of a schema is built of a node of its document. `NodeOf` says what such a node has of
the document: the names it declares, the parser that the registry has under the document's name, and
children that are built of the document's children. `nodeOf_of_buildAt` goes through the kinds of
documents once, and everything else follows by induction along the schema: `every_build` says that
what is true of whatever the nodes of a document make is true of all nodes of its schema.

The documents of a record's keys are not among the nodes, because they are built to checks and not
to schemas.
-/

namespace Conform

namespace Document

/-! ## Nodes -/

/-- The documents that the children of the schema are built of, in order. -/
def children : Document → List Document
  | .primitive _ _ | .options _ _ | .parser _ _ => []
  | .union members _ => members
  | .array items _ => [items]
  | .tuple items _ => items
  | .object properties _ => Entries.values properties
  | .record _ values _ => [values]

/-- A child is smaller than its document. -/
theorem sizeOf_child {document child : Document} (h : child ∈ document.children) :
    sizeOf child < sizeOf document := by
  cases document with
  | primitive | options | parser => exact absurd h List.not_mem_nil
  | union members m =>
    have : sizeOf child < sizeOf members := List.sizeOf_lt_of_mem h
    rw [union.sizeOf_spec]
    omega
  | array items m =>
    rw [List.mem_singleton.1 h, array.sizeOf_spec]
    omega
  | tuple items m =>
    have : sizeOf child < sizeOf items := List.sizeOf_lt_of_mem h
    rw [tuple.sizeOf_spec]
    omega
  | object properties m =>
    have : sizeOf child < sizeOf properties := Entries.sizeOf_lt_of_mem_values h
    rw [object.sizeOf_spec]
    omega
  | record keys values m =>
    rw [List.mem_singleton.1 h, record.sizeOf_spec]
    omega

/-- Structural induction: what holds of a document if it holds of its children holds of all. -/
@[induction_eliminator]
theorem induct {motive : Document → Prop}
    (node : ∀ document, (∀ child ∈ document.children, motive child) → motive document)
    (document : Document) : motive document :=
  node document fun child _ => induct node child
termination_by sizeOf document
decreasing_by exact sizeOf_child ‹_›

mutual

/-- The documents that the nodes of the schema are built of, in order. -/
def nodes (document : Document) : List Document :=
  document ::
    match document with
    | .primitive _ _ | .options _ _ | .parser _ _ => []
    | .union members _ => itemsNodes members
    | .array items _ => nodes items
    | .tuple items _ => itemsNodes items
    | .object properties _ => propertiesNodes properties
    | .record _ values _ => nodes values

/-- The nodes of several documents. -/
def itemsNodes : List Document → List Document
  | [] => []
  | document :: rest => nodes document ++ itemsNodes rest

/-- The nodes of the documents of properties. -/
def propertiesNodes : List (String × Document) → List Document
  | [] => []
  | (_, document) :: rest => nodes document ++ propertiesNodes rest

end

/-- The nodes of a document are its root and the nodes of its children. -/
theorem nodes_eq (document : Document) :
    document.nodes = document :: document.children.flatMap nodes := by
  have hitems (items : List Document) : itemsNodes items = items.flatMap nodes := by
    induction items with
    | nil => rfl
    | cons item rest ih => rw [itemsNodes, ih, List.flatMap_cons]
  have hproperties (properties : List (String × Document)) :
      propertiesNodes properties = (Entries.values properties).flatMap nodes := by
    induction properties with
    | nil => rfl
    | cons p rest ih => rw [propertiesNodes, ih, Entries.values, Entries.values, List.map_cons,
        List.flatMap_cons]
  cases document with
  | primitive | options | parser => simp [nodes, children]
  | union members m => rw [nodes, hitems, children]
  | array items m => simp [nodes, children]
  | tuple items m => rw [nodes, hitems, children]
  | object properties m => rw [nodes, hproperties, children]
  | record keys values m => simp [nodes, children]

/-- The root is a node. -/
theorem self_mem_nodes (document : Document) : document ∈ document.nodes := by
  rw [nodes_eq]
  exact List.mem_cons_self

/-- The nodes of a child are nodes. -/
theorem nodes_subset {document child : Document} (h : child ∈ document.children) :
    child.nodes ⊆ document.nodes := by
  intro node hnode
  rw [document.nodes_eq]
  exact List.mem_cons_of_mem _ (List.mem_flatMap.2 ⟨child, h, hnode⟩)

/-- The names that an object declares. -/
def declaredNames : Document → List String
  | .object properties _ => Entries.keys properties
  | _ => []

/-- The name of the parser that the document stands for, if it does. -/
def parserName? : Document → Option String
  | .parser name _ => some name
  | _ => none

/-- The names of the parsers in a document, in order. -/
def parserNames (document : Document) : List String := document.nodes.filterMap parserName?

/-- No object in the document declares a name twice. So it is in every document that is loaded. -/
def NamesDistinct (document : Document) : Prop :=
  ∀ node ∈ document.nodes, node.declaredNames.Nodup

instance (document : Document) : Decidable document.NamesDistinct :=
  inferInstanceAs (Decidable (∀ node ∈ document.nodes, node.declaredNames.Nodup))

/-! ## What is built of a node -/

/-- What a schema has of the document that it is built of. -/
structure NodeOf (registry : Registry) (document : Document) (schema : Schema) : Prop where
  /-- An object declares the same names. -/
  declaredNames : schema.declaredNames = document.declaredNames
  /-- A parser is the one that the registry has under the name. -/
  parser : ∀ p, schema.parser? = some p →
    ∃ name, document.parserName? = some name ∧ registry.get? name = some p
  /-- Each child is built of a child. -/
  child : ∀ c ∈ schema.children, ∃ d ∈ document.children, ∃ path,
    d.buildAt registry path = .ok c

/-- A union that is built has two or three members. -/
theorem exists_of_unionOf {path : String} {m : Modifiers} {members : List Schema} {schema : Schema}
    (h : unionOf path m members = .ok schema) :
    ∃ first second third, members = Schema.unionMembers first second third ∧
      schema = .union first second third m := by
  unfold unionOf at h
  split at h
  · rename_i first second
    obtain rfl := Except.ok.inj h
    exact ⟨first, second, none, rfl, rfl⟩
  · rename_i first second third
    obtain rfl := Except.ok.inj h
    exact ⟨first, second, some third, rfl, rfl⟩
  · cases h

/-- Schemas are built of documents one by one. -/
theorem forall₂_buildItems {registry : Registry} {path : String} {position : Nat}
    {documents : List Document} {schemas : List Schema}
    (h : buildItems registry path position documents = .ok schemas) :
    List.Forall₂ (fun d s => ∃ path, d.buildAt registry path = .ok s) documents schemas := by
  induction documents generalizing position schemas with
  | nil =>
    obtain rfl := Except.ok.inj h
    exact .nil
  | cons document rest ih =>
    rw [buildItems] at h
    obtain ⟨first, hfirst, h⟩ := bind_eq_ok.1 h
    obtain ⟨others, hothers, h⟩ := bind_eq_ok.1 h
    obtain rfl := Except.ok.inj h
    exact .cons ⟨_, hfirst⟩ (ih hothers)

/-- Properties are built one by one, under their names. -/
theorem forall₂_buildProperties {registry : Registry} {path : String}
    {properties : List (String × Document)} {built : List (String × Schema)}
    (h : buildProperties registry path properties = .ok built) :
    List.Forall₂ (Entries.SameKey fun d s => ∃ path, d.buildAt registry path = .ok s) properties
      built := by
  induction properties generalizing built with
  | nil =>
    obtain rfl := Except.ok.inj h
    exact .nil
  | cons p rest ih =>
    obtain ⟨name, document⟩ := p
    rw [buildProperties] at h
    obtain ⟨first, hfirst, h⟩ := bind_eq_ok.1 h
    obtain ⟨others, hothers, h⟩ := bind_eq_ok.1 h
    obtain rfl := Except.ok.inj h
    exact .cons (.intro name ⟨_, hfirst⟩) (ih hothers)

/-- Whatever a document is built to is a node of it. -/
theorem nodeOf_of_buildAt {registry : Registry} {path : String} {document : Document}
    {schema : Schema} (h : document.buildAt registry path = .ok schema) :
    NodeOf registry document schema := by
  cases document with
  | primitive p m =>
    obtain rfl := Except.ok.inj h
    exact ⟨rfl, nofun, nofun⟩
  | options values m =>
    obtain rfl := Except.ok.inj h
    exact ⟨rfl, nofun, nofun⟩
  | parser name m =>
    rw [buildAt] at h
    split at h
    · rename_i p hp
      obtain rfl := Except.ok.inj h
      refine ⟨rfl, fun q hq => ⟨name, rfl, ?_⟩, nofun⟩
      rw [hp]
      exact hq
    · cases h
  | union members m =>
    rw [buildAt] at h
    obtain ⟨schemas, hschemas, h⟩ := bind_eq_ok.1 h
    obtain ⟨first, second, third, rfl, rfl⟩ := exists_of_unionOf h
    exact ⟨rfl, nofun, fun c hc => exists_of_forall₂ (forall₂_buildItems hschemas) hc⟩
  | array items m =>
    rw [buildAt] at h
    obtain ⟨element, helement, h⟩ := bind_eq_ok.1 h
    obtain rfl := Except.ok.inj h
    refine ⟨rfl, nofun, List.forall_mem_singleton.2 ?_⟩
    exact ⟨items, List.mem_singleton_self items, _, helement⟩
  | tuple items m =>
    rw [buildAt] at h
    obtain ⟨schemas, hschemas, h⟩ := bind_eq_ok.1 h
    obtain rfl := Except.ok.inj h
    exact ⟨rfl, nofun, fun c hc => exists_of_forall₂ (forall₂_buildItems hschemas) hc⟩
  | object properties m =>
    rw [buildAt] at h
    obtain ⟨built, hbuilt, h⟩ := bind_eq_ok.1 h
    obtain rfl := Except.ok.inj h
    have hsame := forall₂_buildProperties hbuilt
    refine ⟨(Entries.keys_eq_of_forall₂ hsame).symm, nofun, fun c hc => ?_⟩
    obtain ⟨q, hq, rfl⟩ := List.mem_map.1 hc
    obtain ⟨p, hp, name, hbuild⟩ := exists_of_forall₂ hsame hq
    exact ⟨_, List.mem_map_of_mem hp, hbuild⟩
  | record keys values m =>
    rw [buildAt] at h
    obtain ⟨check, -, h⟩ := bind_eq_ok.1 h
    obtain ⟨built, hbuilt, h⟩ := bind_eq_ok.1 h
    obtain rfl := Except.ok.inj h
    -- The check of the keys is no schema and leaves no trace here.
    refine ⟨rfl, nofun, List.forall_mem_singleton.2 ?_⟩
    exact ⟨values, List.mem_singleton_self values, _, hbuilt⟩

/-! ## What holds at every node of a built schema -/

/-- What holds of all that the nodes of a document are built to holds at every node of its schema,
wherever the document stands. -/
theorem every_buildAt {P : Schema → Prop} {registry : Registry} {schema : Schema}
    {document : Document} {path : String} (h : document.buildAt registry path = .ok schema)
    (hnode : ∀ node ∈ document.nodes, ∀ s, NodeOf registry node s → P s) : schema.Every P := by
  -- Each child is built at a path of its own, so the induction is for all paths at once.
  induction schema generalizing document path with
  | node schema ih =>
    have hroot := nodeOf_of_buildAt h
    refine .intro (hnode document document.self_mem_nodes schema hroot) fun c hc => ?_
    obtain ⟨d, hd, path, hchild⟩ := hroot.child c hc
    exact ih c hc hchild fun node hmem => hnode node (nodes_subset hd hmem)

/-- A property of what the registry has under the names in a document is one of all parsers in the
schema of the document. -/
theorem everyParser_build {P : Parser → Prop} {registry : Registry} {document : Document}
    {schema : Schema} (h : document.build registry = .ok schema)
    (hnames : ∀ name ∈ document.parserNames, ∀ p, registry.get? name = some p → P p) :
    schema.EveryParser P := by
  refine every_buildAt h fun node hmem s hs p hp => ?_
  obtain ⟨name, hname, hget⟩ := hs.parser p hp
  exact hnames name (List.mem_filterMap.2 ⟨node, hmem, hname⟩) p hget

/-- The schema of a document that declares no name twice in an object declares none twice. -/
theorem namesDistinct_build {registry : Registry} {document : Document} {schema : Schema}
    (h : document.build registry = .ok schema) (hnames : document.NamesDistinct) :
    schema.NamesDistinct := by
  refine every_buildAt h fun node hmem s hs => ?_
  rw [hs.declaredNames]
  exact hnames node hmem

end Document

end Conform

import Conform.Proofs.Build

/-!
# The first fault of a document

A document has a schema exactly if each of its nodes is sound: unions have two or three members,
parsers are registered, and the keys of records are unmodified checks of single values. Otherwise
the fault that is told is that of the first node in the order of the document that is not, the
parts of a node before the node itself and the keys of a record before its values. Both are in
`build_iff_sound`.

The order is written down as a list, `Document.sites`, with the steps that lead to each node.
`errorOf_buildAt` says what the building of one node does: it fails as its keys do, else as the
first of its children does, else on its own. By induction it fails as the first site does.
-/

namespace Conform

namespace Document

/-! ## The order of the document -/

/-- A step from a node to one of its parts. -/
inductive Step where
  | member (position : Nat)
  | items
  | item (position : Nat)
  | property (name : String)
  | keys
  | values
  deriving DecidableEq

/-- A step as it is written in a path. -/
def Step.text : Step → String
  | .member position => ".members[" ++ toString position ++ "]"
  | .items => ".items"
  | .item position => ".items[" ++ toString position ++ "]"
  | .property name => ".properties." ++ name
  | .keys => ".keys"
  | .values => ".values"

/-- The path of the node that the steps lead to. -/
def pathOf (steps : List Step) : String := steps.foldl (fun path step => path ++ step.text) "$"

/-- What a node is for: a schema is built of it, or the check of a record's keys. -/
inductive Role where
  | schema
  | keys
  deriving DecidableEq

/-- A node with the steps that lead to it from the root. -/
structure Site where
  steps : List Step
  role : Role
  node : Document

mutual

/-- The nodes of a document that the steps lead to, in the order in which they are looked at. -/
def sitesFrom (steps : List Step) (document : Document) : List Site :=
  (match document with
    | .primitive _ _ | .options _ _ | .parser _ _ => []
    | .union members _ => itemsSites steps .member 0 members
    | .array items _ => sitesFrom (steps ++ [.items]) items
    | .tuple items _ => itemsSites steps .item 0 items
    | .object properties _ => propertiesSites steps properties
    | .record keys values _ =>
      ⟨steps ++ [.keys], .keys, keys⟩ :: sitesFrom (steps ++ [.values]) values) ++
    [⟨steps, .schema, document⟩]

/-- The nodes of several documents, the first of which is at the position. -/
def itemsSites (steps : List Step) (step : Nat → Step) (position : Nat) :
    List Document → List Site
  | [] => []
  | document :: rest =>
    sitesFrom (steps ++ [step position]) document ++ itemsSites steps step (position + 1) rest

/-- The nodes of the documents of properties. -/
def propertiesSites (steps : List Step) : List (String × Document) → List Site
  | [] => []
  | (name, document) :: rest =>
    sitesFrom (steps ++ [.property name]) document ++ propertiesSites steps rest

end

/-- The nodes of a document in the order in which they are looked at: parts before what they are
part of, and these in the order of the document. -/
def sites (document : Document) : List Site := document.sitesFrom []

/-- The children with the steps to them, in order. -/
def branches : Document → List (Step × Document)
  | .primitive _ _ | .options _ _ | .parser _ _ => []
  | .union members _ => members.zipIdx.map fun x => (.member x.2, x.1)
  | .array items _ => [(.items, items)]
  | .tuple items _ => items.zipIdx.map fun x => (.item x.2, x.1)
  | .object properties _ => properties.map fun p => (.property p.1, p.2)
  | .record _ values _ => [(.values, values)]

/-- The node for the keys, if the document is a record. -/
def keysSites (steps : List Step) : Document → List Site
  | .record keys _ _ => [⟨steps ++ [.keys], .keys, keys⟩]
  | _ => []

/-- The branches lead to the children. -/
theorem map_snd_branches (document : Document) :
    document.branches.map Prod.snd = document.children := by
  cases document <;> simp [branches, children, Entries.values, Function.comp_def]

/-- The sites of a document are that of the keys, those of the children and its own. -/
theorem sitesFrom_eq (steps : List Step) (document : Document) :
    document.sitesFrom steps =
      document.keysSites steps ++
        (document.branches.flatMap fun b => b.2.sitesFrom (steps ++ [b.1])) ++
          [⟨steps, .schema, document⟩] := by
  have hitems (step : Nat → Step) (position : Nat) (items : List Document) :
      itemsSites steps step position items =
        (items.zipIdx position).flatMap fun x => x.1.sitesFrom (steps ++ [step x.2]) := by
    induction items generalizing position with
    | nil => rfl
    | cons item rest ih => rw [itemsSites, ih, List.zipIdx_cons, List.flatMap_cons]
  have hproperties (properties : List (String × Document)) :
      propertiesSites steps properties =
        properties.flatMap fun p => p.2.sitesFrom (steps ++ [.property p.1]) := by
    induction properties with
    | nil => rfl
    | cons p rest ih => rw [propertiesSites, ih, List.flatMap_cons]
  cases document <;>
    simp [sitesFrom, keysSites, branches, hitems, hproperties, List.flatMap_map]

/-! ## Faults -/

/-- The document describes the check of a single value that is no parser. -/
def IsKeyCheck : Document → Prop
  | .primitive _ _ | .options _ _ => True
  | _ => False

instance : DecidablePred IsKeyCheck := fun document => by
  cases document <;> first | exact isTrue trivial | exact isFalse id

/-- A node has what is asked of it: a union has two or three members, a parser is registered, and a
record has keys without modifiers that are a primitive type or options. -/
def Sound (registry : Registry) : Document → Prop
  | .union members _ => members.length = 2 ∨ members.length = 3
  | .parser name _ => ∃ p, registry.get? name = some p
  | .record keys _ _ => keys.modifiers = .none ∧ keys.IsKeyCheck
  | _ => True

/-- What is wrong with a node at its place. -/
def Site.fault? (registry : Registry) (site : Site) : Option BuildFault :=
  match site.role, site.node with
  | .schema, .union members _ =>
    if members.length = 2 ∨ members.length = 3 then none
    else some (.unionArity (pathOf site.steps) members.length)
  | .schema, .parser name _ =>
    if (registry.get? name).isSome then none else some (.unknownParser name (pathOf site.steps))
  | .schema, _ => none
  | .keys, keys =>
    if keys.modifiers ≠ .none then
      some (.recordKey (pathOf site.steps) "key schemas cannot be nullable or optional")
    else if keys.IsKeyCheck then none
    else some (.recordKey (pathOf site.steps) "expected a primitive or options node")

/-! ## The fault of one node -/

/-- A path is one step longer than that of the node before it. -/
theorem pathOf_append (steps : List Step) (step : Step) :
    pathOf (steps ++ [step]) = pathOf steps ++ step.text := by
  rw [pathOf, List.foldl_append]
  rfl

/-- Documents in a field of a node fail as the first of them that does. -/
theorem errorOf_buildItems (registry : Registry) (steps : List Step) (step : Nat → Step)
    (field : String) (hstep : ∀ i, (step i).text = field ++ "[" ++ toString i ++ "]")
    (position : Nat) (documents : List Document) :
    errorOf (buildItems registry (pathOf steps ++ field) position documents) =
      (documents.zipIdx position).findSome? fun x =>
        errorOf (x.1.buildAt registry (pathOf (steps ++ [step x.2]))) := by
  induction documents generalizing position with
  | nil => rfl
  | cons document rest ih =>
    have hpath : pathOf (steps ++ [step position]) =
        pathOf steps ++ field ++ "[" ++ toString position ++ "]" := by
      simp only [pathOf_append, hstep, String.append_assoc]
    rw [buildItems, List.zipIdx_cons, findSome?_cons_eq_or, ← ih, hpath]
    exact errorOf_bind fun _ _ => errorOf_bind_pure _ _

/-- The documents of properties fail as the first of them that does. -/
theorem errorOf_buildProperties (registry : Registry) (steps : List Step)
    (properties : List (String × Document)) :
    errorOf (buildProperties registry (pathOf steps ++ ".properties") properties) =
      properties.findSome? fun p =>
        errorOf (p.2.buildAt registry (pathOf (steps ++ [.property p.1]))) := by
  induction properties with
  | nil => rfl
  | cons p rest ih =>
    obtain ⟨name, document⟩ := p
    have hpath : pathOf (steps ++ [.property name]) =
        pathOf steps ++ ".properties" ++ "." ++ name := by
      simp only [pathOf_append, String.append_assoc]
      rfl
    rw [buildProperties, findSome?_cons_eq_or, ← ih, hpath]
    exact errorOf_bind fun _ _ => errorOf_bind_pure _ _

/-- A union fails unless it has two or three members. -/
theorem errorOf_unionOf (path : String) (m : Modifiers) (members : List Schema) :
    errorOf (unionOf path m members) =
      if members.length = 2 ∨ members.length = 3 then none
      else some (.unionArity path members.length) := by
  rcases members with _ | ⟨a, _ | ⟨b, _ | ⟨c, _ | ⟨d, rest⟩⟩⟩⟩ <;> simp [unionOf, errorOf]

/-- The keys of a record fail with what is wrong with them at their place. -/
theorem errorOf_keyCheck (registry : Registry) (keys : Document) (steps : List Step) :
    errorOf (keys.keyCheck (pathOf steps)) = (⟨steps, .keys, keys⟩ : Site).fault? registry := by
  unfold keyCheck Site.fault?
  by_cases hmodifiers : keys.modifiers = .none
  · cases keys <;> simp_all [errorOf, IsKeyCheck, modifiers]
  · simp [hmodifiers, errorOf]

/-- A document fails as its keys do, or else as the first of its children that does, or else with
what is wrong with itself. -/
theorem errorOf_buildAt (registry : Registry) (steps : List Step) (document : Document) :
    errorOf (document.buildAt registry (pathOf steps)) =
      (((document.keysSites steps).findSome? (·.fault? registry)).or
        (document.branches.findSome? fun b =>
          errorOf (b.2.buildAt registry (pathOf (steps ++ [b.1]))))).or
        ((⟨steps, .schema, document⟩ : Site).fault? registry) := by
  cases document with
  | primitive p m => rfl
  | options values m => rfl
  | parser name m =>
    rw [buildAt]
    cases hget : registry.get? name <;>
      simp [errorOf, keysSites, branches, Site.fault?, hget]
  | union members m =>
    -- The arity is looked at when all members have been built, and these are as many.
    have hown (schemas : List Schema)
        (h : buildItems registry (pathOf steps ++ ".members") 0 members = .ok schemas) :
        errorOf (unionOf (pathOf steps) m schemas) =
          (⟨steps, .schema, .union members m⟩ : Site).fault? registry := by
      rw [errorOf_unionOf, ← (forall₂_buildItems h).length_eq]
      rfl
    have hmembers := errorOf_buildItems registry steps .member ".members" (fun _ => rfl) 0 members
    rw [buildAt, errorOf_bind hown, hmembers, branches, List.findSome?_map]
    rfl
  | array items m =>
    have hitems : pathOf (steps ++ [.items]) = pathOf steps ++ ".items" := pathOf_append ..
    rw [buildAt, errorOf_bind_pure, branches, findSome?_cons_eq_or, hitems]
    exact (Option.or_none.trans Option.or_none).symm
  | tuple items m =>
    have hitems := errorOf_buildItems registry steps .item ".items" (fun _ => rfl) 0 items
    rw [buildAt, errorOf_bind_pure, hitems, branches, List.findSome?_map]
    exact Option.or_none.symm
  | object properties m =>
    rw [buildAt, errorOf_bind_pure, errorOf_buildProperties, branches, List.findSome?_map]
    exact Option.or_none.symm
  | record keys values m =>
    -- The values are built only if the check of the keys has not failed.
    have hkeys : pathOf (steps ++ [.keys]) = pathOf steps ++ ".keys" := pathOf_append ..
    have hvalues : pathOf (steps ++ [.values]) = pathOf steps ++ ".values" := pathOf_append ..
    rw [buildAt, errorOf_bind fun _ _ => errorOf_bind_pure _ _, ← hkeys, ← hvalues,
      errorOf_keyCheck registry, keysSites, branches, findSome?_cons_eq_or, findSome?_cons_eq_or]
    simp [Site.fault?]

/-! ## The first fault -/

/-- A document fails with the fault of the first of its nodes that has one. -/
theorem errorOf_buildAt_eq_findSome? (registry : Registry) (steps : List Step)
    (document : Document) :
    errorOf (document.buildAt registry (pathOf steps)) =
      (document.sitesFrom steps).findSome? (·.fault? registry) := by
  induction document generalizing steps with
  | node document ih =>
    have hbranch (b : Step × Document) (hb : b ∈ document.branches) :
        errorOf (b.2.buildAt registry (pathOf (steps ++ [b.1]))) =
          (b.2.sitesFrom (steps ++ [b.1])).findSome? (·.fault? registry) :=
      ih b.2 (document.map_snd_branches ▸ List.mem_map_of_mem hb) _
    rw [errorOf_buildAt, findSome?_congr_mem hbranch, sitesFrom_eq, List.findSome?_append,
      List.findSome?_append, findSome?_flatMap_eq, findSome?_cons_eq_or, List.findSome?_nil,
      Option.or_none]

/-- The keys of a node and the node itself have no fault at their places exactly if it is sound. -/
theorem fault?_eq_none_iff (registry : Registry) (steps : List Step) (document : Document) :
    ((∀ site ∈ document.keysSites steps, site.fault? registry = none) ∧
      (⟨steps, .schema, document⟩ : Site).fault? registry = none) ↔ document.Sound registry := by
  cases document with
  | record keys values m =>
    by_cases hmodifiers : keys.modifiers = .none <;> by_cases hkeys : keys.IsKeyCheck <;>
      simp [keysSites, Site.fault?, Sound, hmodifiers, hkeys]
  | _ =>
    simp [keysSites, Site.fault?, Sound, Option.isSome_iff_exists, Decidable.or_iff_not_imp_left]

/-- No node has a fault at its place exactly if all nodes are sound. -/
theorem forall_fault?_eq_none (registry : Registry) (steps : List Step) (document : Document) :
    (∀ site ∈ document.sitesFrom steps, site.fault? registry = none) ↔
      ∀ node ∈ document.nodes, node.Sound registry := by
  induction document generalizing steps with
  | node document ih =>
    have hbranches : (∀ b ∈ document.branches, ∀ site ∈ b.2.sitesFrom (steps ++ [b.1]),
        site.fault? registry = none) ↔
          ∀ child ∈ document.children, ∀ node ∈ child.nodes, node.Sound registry := by
      rw [← map_snd_branches, List.forall_mem_map]
      exact forall₂_congr fun b hb => ih b.2 (document.map_snd_branches ▸ List.mem_map_of_mem hb) _
    rw [sitesFrom_eq, nodes_eq, List.forall_mem_append, List.forall_mem_append,
      List.forall_mem_singleton, List.forall_mem_flatMap, List.forall_mem_cons,
      List.forall_mem_flatMap, hbranches, ← fault?_eq_none_iff registry steps document,
      and_right_comm]

/-! ## Where the sites are -/

/-- The steps lead from a document to a node that has the role. -/
inductive HasPart : Document → List Step → Role → Document → Prop where
  /-- A schema is built of the document itself. -/
  | here (document : Document) : HasPart document [] .schema document
  /-- The steps to a child come before the steps from there. -/
  | further {document child node : Document} {step : Step} {steps : List Step} {role : Role}
    (h : (step, child) ∈ document.branches) (hpart : HasPart child steps role node) :
    HasPart document (step :: steps) role node
  /-- A record has its keys. -/
  | keys (keys values : Document) (m : Modifiers) :
    HasPart (.record keys values m) [.keys] .keys keys

/-- The sites of a document are its parts with the steps that lead to them. -/
theorem mem_sitesFrom {steps : List Step} {document : Document} {site : Site} :
    site ∈ document.sitesFrom steps ↔
      ∃ rest, site.steps = steps ++ rest ∧ document.HasPart rest site.role site.node := by
  constructor
  · intro h
    induction document generalizing steps with
    | node document ih =>
      rw [sitesFrom_eq, List.mem_append, List.mem_append, List.mem_flatMap, List.mem_singleton] at h
      rcases h with (hkeys | ⟨⟨step, child⟩, hb, hsite⟩) | rfl
      · cases document with
        | record keys values m =>
          obtain rfl := List.mem_singleton.1 hkeys
          exact ⟨[.keys], rfl, .keys keys values m⟩
        | _ => cases hkeys
      · have hchild : child ∈ document.children :=
          document.map_snd_branches ▸ List.mem_map_of_mem hb
        obtain ⟨rest, hsteps, hpart⟩ := ih child hchild hsite
        exact ⟨step :: rest, by rw [hsteps, List.append_assoc, List.singleton_append],
          .further hb hpart⟩
      · exact ⟨[], (List.append_nil steps).symm, .here document⟩
  · rintro ⟨rest, hsteps, hpart⟩
    obtain ⟨_, role, node⟩ := site
    dsimp only at hsteps hpart
    subst hsteps
    induction hpart generalizing steps with
    | here document =>
      rw [sitesFrom_eq, List.append_nil]
      exact List.mem_append_right _ (List.mem_singleton_self _)
    | @further document child node step rest role hb _ ih =>
      -- The sites of the child are those of the walk that has gone the step already.
      have hsite : (⟨steps ++ [step] ++ rest, role, node⟩ : Site) ∈
          child.sitesFrom (steps ++ [step]) := ih
      rw [List.append_assoc, List.singleton_append] at hsite
      rw [sitesFrom_eq]
      exact List.mem_append_left _ (List.mem_append_right _ (List.mem_flatMap.2 ⟨_, hb, hsite⟩))
    | keys keys values m =>
      rw [sitesFrom_eq]
      exact List.mem_append_left _ (List.mem_append_left _ (List.mem_singleton_self _))

/-- A document has a schema exactly if all its nodes are sound. It has none for the fault of the
first of its sites that has one, and each site is where its steps lead to. A parser is registered
exactly if its name is listed. -/
theorem build_iff_sound (registry : Registry) (document : Document) :
    ((∃ schema, document.build registry = .ok schema) ↔
      ∀ node ∈ document.nodes, node.Sound registry) ∧
    (∀ fault, document.build registry = .error fault ↔
      ∃ before site after, document.sites = before ++ site :: after ∧
        site.fault? registry = some fault ∧ ∀ s ∈ before, s.fault? registry = none) ∧
    (∀ site, site ∈ document.sites ↔ document.HasPart site.steps site.role site.node) ∧
    ∀ name, (∃ p, registry.get? name = some p) ↔ name ∈ registry.names := by
  have hbuild : errorOf (document.build registry) =
      document.sites.findSome? (·.fault? registry) :=
    errorOf_buildAt_eq_findSome? registry [] document
  refine ⟨?_, fun fault => ?_, fun site => ?_, fun name => ?_⟩
  · rw [← errorOf_eq_none, hbuild, List.findSome?_eq_none_iff, sites, forall_fault?_eq_none]
  · rw [← errorOf_eq_some, hbuild, List.findSome?_eq_some_iff]
  · rw [sites, mem_sitesFrom]
    simp only [List.nil_append, exists_eq_left']
  · rw [Registry.mem_names_iff, Option.isSome_iff_exists]

/-- An object with what a parser takes under `id`, and under `tags` a record of what one of the
members takes. -/
def orderDocument (parser : String) (members : List Document) : Document :=
  .object [("id", .parser parser .none),
    ("tags", .record (.options [.string "a"] .none) (.union members .none) .none)] .none

/-- With a parser that is registered and two members the document has a schema. With a name that is
not registered it has none, and the fault is that of the parser also where a member is lacking,
since that comes later. -/
theorem build_iff_sound_orderDocument :
    "integer" ∈ Registry.builtins.names ∧
      (∃ schema, (orderDocument "integer"
        [.primitive .string .none, .primitive .number .none]).build .builtins = .ok schema) ∧
      "integr" ∉ Registry.builtins.names ∧
      (orderDocument "integr" [.primitive .string .none]).build .builtins =
        .error (.unknownParser "integr" "$.properties.id") := by
  obtain ⟨hbuild, -, -, hlisted⟩ := build_iff_sound .builtins
    (orderDocument "integer" [.primitive .string .none, .primitive .number .none])
  obtain ⟨-, hfault, -, -⟩ := build_iff_sound .builtins
    (orderDocument "integr" [.primitive .string .none])
  have hinteger : ∃ p, Registry.builtins.get? "integer" = some p := ⟨_, rfl⟩
  have hunknown : ¬ ∃ p, Registry.builtins.get? "integr" = some p := by
    rintro ⟨p, hp⟩
    cases hp
  have hsound : ∀ node ∈ (orderDocument "integer" [.primitive .string .none,
      .primitive .number .none]).nodes, node.Sound .builtins := by
    simp [orderDocument, nodes, itemsNodes, propertiesNodes, Sound, IsKeyCheck, modifiers, hinteger]
  refine ⟨(hlisted "integer").1 hinteger, hbuild.2 hsound, mt (hlisted "integr").2 hunknown, ?_⟩
  exact (hfault _).2 ⟨[], _, _, rfl, by decide +kernel, List.forall_mem_nil _⟩

/-- The keys of the record come before its values, and the union's only member before the union. -/
example : (object [("a", .record (.union [] .none) (.union [.parser "p" .none] .none) .none)]
      .none).sites.map (fun site => (pathOf site.steps, site.fault? Registry.empty)) =
    [("$.properties.a.keys",
        some (.recordKey "$.properties.a.keys" "expected a primitive or options node")),
      ("$.properties.a.values.members[0]",
        some (.unknownParser "p" "$.properties.a.values.members[0]")),
      ("$.properties.a.values", some (.unionArity "$.properties.a.values" 1)),
      ("$.properties.a", none), ("$", none)] := by
  decide +kernel

end Document

end Conform

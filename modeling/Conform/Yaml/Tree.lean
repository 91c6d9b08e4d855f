import Conform.Yaml.Node

/-!
# YAML trees

A document without aliases. `Node.expand` puts the nodes in that aliases stand for. It refuses
documents that are nested too deeply, as one that contains itself is, and those that would grow far
beyond their text.
-/

namespace Conform.Yaml

/-- A document without aliases. -/
inductive Tree where
  | scalar (tag : Option Tag) (plain : Bool) (text : String)
  | sequence (tag : Option Tag) (items : List Tree)
  | mapping (tag : Option Tag) (entries : List (Tree × Tree))

namespace Node

mutual

/-- The nodes with anchors, in the order of the text, with their numbers. -/
def anchored : Node → List (Nat × Node)
  | .alias _ => []
  | .scalar anchor tag plain text =>
    (anchor.map fun a => (a, Node.scalar anchor tag plain text)).toList
  | .sequence anchor tag items =>
    (anchor.map fun a => (a, Node.sequence anchor tag items)).toList ++ itemsAnchored items
  | .mapping anchor tag entries =>
    (anchor.map fun a => (a, Node.mapping anchor tag entries)).toList ++ entriesAnchored entries

/-- The nodes with anchors among the items. -/
def itemsAnchored : List Node → List (Nat × Node)
  | [] => []
  | item :: rest => anchored item ++ itemsAnchored rest

/-- The nodes with anchors among the keys and values. -/
def entriesAnchored : List (Node × Node) → List (Nat × Node)
  | [] => []
  | (key, value) :: rest => anchored key ++ anchored value ++ entriesAnchored rest

end

mutual

/-- How much text a node takes: one for a scalar or an alias, and one for each end of a
collection. -/
def extent : Node → Nat
  | .alias _ | .scalar .. => 1
  | .sequence _ _ items => 2 + itemsExtent items
  | .mapping _ _ entries => 2 + entriesExtent entries

/-- How much text the items take. -/
def itemsExtent : List Node → Nat
  | [] => 0
  | item :: rest => extent item + itemsExtent rest

/-- How much text the entries take. -/
def entriesExtent : List (Node × Node) → Nat
  | [] => 0
  | (key, value) :: rest => extent key + extent value + entriesExtent rest

end

end Node

/-- Steps that count the aliases that may still be replaced. -/
abbrev Expand := StateT Nat (Except Fault)

/-- The node that an alias stands for: the last one with its number. -/
def target (table : List (Nat × Node)) (anchor : Nat) : Expand Node := do
  let left ← get
  if left = 0 then throw .tooManyAliases
  set (left - 1)
  match table.reverse.lookup anchor with
  | some node => return node
  | none => throw .unknownAlias

/-- A node of which no alias is left, with at most `depth` collections inside one another. -/
def expandNode (table : List (Nat × Node)) : Nat → Node → Expand Tree
  | depth, node => do
    let node ← match node with
      | .alias anchor => target table anchor
      | node => pure node
    match depth, node with
    | _, .alias _ => throw .unknownAlias
    | _, .scalar _ tag plain text => return .scalar tag plain text
    | 0, _ => throw .tooDeep
    | depth + 1, .sequence _ tag items =>
      return .sequence tag (← items.mapM (expandNode table depth))
    | depth + 1, .mapping _ tag entries =>
      let entries ← entries.mapM fun (key, value) => do
        return (← expandNode table depth key, ← expandNode table depth value)
      return .mapping tag entries

/-- How many collections may be inside one another. -/
def depthLimit : Nat := 128

/-- A document without its aliases, of which at most a hundred for each piece of text are
replaced. -/
def Node.expand (node : Node) : Except Fault Tree :=
  (expandNode node.anchored depthLimit node).run' (100 * node.extent)

/-- The tree of the only document of a text; `none` if the text holds none. -/
def tree? (text : String) : Except Fault (Option Tree) := do
  match ← document? text with
  | some node => return some (← node.expand)
  | none => return none

end Conform.Yaml

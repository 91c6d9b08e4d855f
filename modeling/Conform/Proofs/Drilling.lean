import Conform.Proofs.KeyOrder
import Conform.Proofs.Locality
import Conform.Proofs.Positions
import Mathlib.Data.List.Nodup

/-!
# Steps into a tree of errors

A tree is looked into step by step, by names and by positions, and a step that leads nowhere finds
that nothing has failed. `partAt_sound_complete` says that this neither invents errors nor hides
any: what is found at the end of any way has a run of the errors of the tree, and each error of the
tree is found at the end of a way of keys and positions that the tree has.

What a step can find is said once, by `part_cases`. That the errors found are a run is by induction
on the way from there. The ways to the errors are listed by `leafWays` in the order in which
`leaves` tells the errors, and what is said of them is by induction on the tree. They are distinct
because those to different parts begin with different segments (`nodup_segments`), which takes that
no map has a key twice. Trees that walks leave are such (`Schema.keysDistinct_verdict`).
-/

namespace Conform

namespace Validation

/-! ## Induction on trees -/

/-- The trees that a tree is made of, in order. -/
def children : Validation → List Validation
  | .list items => items
  | .map entries => Entries.values entries
  | .clean | .leaf _ => []

/-- A child is smaller than its tree. -/
theorem sizeOf_child {tree child : Validation} (h : child ∈ tree.children) :
    sizeOf child < sizeOf tree := by
  cases tree with
  | clean | leaf => exact absurd h List.not_mem_nil
  | list items =>
    have : sizeOf child < sizeOf items := List.sizeOf_lt_of_mem h
    rw [list.sizeOf_spec]
    omega
  | map entries =>
    have : sizeOf child < sizeOf entries := Entries.sizeOf_lt_of_mem_values h
    rw [map.sizeOf_spec]
    omega

/-- Structural induction: what holds of a tree if it holds of its children holds of all. -/
@[induction_eliminator]
theorem induct {motive : Validation → Prop}
    (node : ∀ tree, (∀ child ∈ tree.children, motive child) → motive tree)
    (tree : Validation) : motive tree :=
  node tree fun child _ => induct node child
termination_by sizeOf tree
decreasing_by exact sizeOf_child ‹_›

/-- The keys of a map. -/
def keys : Validation → List String
  | .map entries => Entries.keys entries
  | _ => []

/-- No map in the tree has a key twice. -/
inductive KeysDistinct : Validation → Prop
  | intro {tree : Validation} (here : tree.keys.Nodup)
    (child : ∀ c ∈ tree.children, KeysDistinct c) : KeysDistinct tree

/-- A tree is a leaf exactly if it has the error of one. -/
theorem leaf?_eq_some {tree : Validation} {error : String} :
    tree.leaf? = some error ↔ tree = .leaf error := by
  cases tree <;> simp [leaf?]

/-- The errors of a tree are that of a leaf and those of the children. -/
theorem leaves_eq (tree : Validation) :
    tree.leaves = tree.leaf?.toList ++ tree.children.flatMap leaves := by
  have hitems (items : List Validation) : itemsLeaves items = items.flatMap leaves := by
    induction items with
    | nil => rfl
    | cons item rest ih => rw [itemsLeaves, ih, List.flatMap_cons]
  have hentries (entries : List (String × Validation)) :
      entriesLeaves entries = (Entries.values entries).flatMap leaves := by
    induction entries with
    | nil => rfl
    | cons e rest ih =>
      rw [entriesLeaves, ih, Entries.values, Entries.values, List.map_cons, List.flatMap_cons]
  cases tree with
  | clean => rfl
  | leaf error => rfl
  | list items => exact hitems items
  | map entries => exact hentries entries

/-- A tree has errors if it is a leaf or one of the children has. -/
theorem hasErrors_eq (tree : Validation) :
    tree.hasErrors = (tree.leaf?.isSome || tree.children.any hasErrors) := by
  cases tree with
  | clean => rfl
  | leaf error => rfl
  | list items => exact itemsHaveErrors_eq items
  | map entries =>
    rw [hasErrors, entriesHaveErrors_eq, children, Entries.values, List.any_map]
    rfl

/-- A tree has errors exactly if there are some to tell. -/
theorem hasErrors_iff (tree : Validation) : tree.hasErrors = true ↔ tree.leaves ≠ [] := by
  induction tree with
  | node tree ih =>
    have hnone : (tree.children.flatMap leaves = []) ↔
        ¬ ∃ child ∈ tree.children, child.hasErrors = true := by
      rw [List.flatMap_eq_nil_iff, not_exists]
      refine forall_congr' fun child => ?_
      rw [not_and]
      exact forall_congr' fun hchild => (not_iff_comm.1 (ih child hchild).symm).symm
    rw [hasErrors_eq, leaves_eq, Bool.or_eq_true, List.any_eq_true, Ne, List.append_eq_nil_iff,
      hnone]
    cases tree.leaf? <;> simp

/-! ## The end of a way -/

/-- Nothing has failed below a place where nothing has. -/
theorem partAt_clean (way : List Segment) : partAt way .clean = .clean := by
  induction way with
  | nil => rfl
  | cons segment way ih => cases segment <;> exact ih

/-- A leaf stands for all that is below it. -/
theorem partAt_leaf (way : List Segment) (error : String) :
    partAt way (.leaf error) = .leaf error := by
  induction way with
  | nil => rfl
  | cons segment way ih => cases segment <;> exact ih

/-- A way goes on from where its beginning ends. -/
theorem partAt_append (tree : Validation) (way more : List Segment) :
    tree.partAt (way ++ more) = (tree.partAt way).partAt more :=
  List.foldl_append

/-- What a step finds: a leaf again, a child, or that nothing has failed. -/
theorem part_cases (tree : Validation) (segment : Segment) :
    (∃ error, tree = .leaf error ∧ tree.part segment = .leaf error) ∨
      tree.part segment ∈ tree.children ∨ tree.part segment = .clean := by
  -- Each look-up is one that may fail, and then finds that nothing has failed.
  have hgetD {found : Option Validation} (h : ∀ child ∈ found, child ∈ tree.children) :
      found.getD .clean ∈ tree.children ∨ found.getD .clean = .clean := by
    cases found with
    | none => exact .inr rfl
    | some child => exact .inl (h child rfl)
  cases tree with
  | clean => cases segment <;> exact .inr (.inr rfl)
  | leaf error => cases segment <;> exact .inl ⟨error, rfl, rfl⟩
  | list items =>
    right
    cases segment with
    | property name =>
      refine hgetD fun child hchild => ?_
      obtain ⟨position, -, hchild⟩ := Option.bind_eq_some_iff.1 hchild
      exact List.mem_of_getElem? hchild
    | item position => exact hgetD fun child hchild => List.mem_of_getElem? hchild
  | map entries =>
    right
    cases segment with
    | property name =>
      exact hgetD fun child hchild => List.mem_map_of_mem (Entries.mem_of_get? hchild)
    | item position => exact .inr rfl

/-- The errors of a child are a run of those of the tree. -/
theorem leaves_infix_of_mem {tree child : Validation} (h : child ∈ tree.children) :
    child.leaves <:+: tree.leaves := by
  rw [leaves_eq tree, List.flatMap_def]
  exact (List.infix_of_mem_flatten (List.mem_map_of_mem h)).trans (List.suffix_append _ _).isInfix

/-- A step finds a run of the errors. -/
theorem leaves_part (tree : Validation) (segment : Segment) :
    (tree.part segment).leaves <:+: tree.leaves := by
  obtain ⟨error, rfl, hpart⟩ | hpart | hpart := tree.part_cases segment
  · exact hpart.symm ▸ List.infix_rfl
  · exact leaves_infix_of_mem hpart
  · rw [hpart]
    exact List.nil_infix

/-- A way finds a run of the errors. -/
theorem leaves_partAt (tree : Validation) (way : List Segment) :
    (tree.partAt way).leaves <:+: tree.leaves := by
  induction way generalizing tree with
  | nil => exact List.infix_rfl
  | cons segment way ih => exact (ih (tree.part segment)).trans (tree.leaves_part segment)

/-! ## The ways to the errors -/

/-- The segment is a key of a map or a position of a list. -/
def Has : Validation → Segment → Prop
  | .map entries, .property name => name ∈ Entries.keys entries
  | .list items, .item position => position < items.length
  | _, _ => False

/-- Each segment of the way is a key or a position of what there is before it. -/
def Follows : Validation → List Segment → Prop
  | _, [] => True
  | tree, segment :: way => tree.Has segment ∧ (tree.part segment).Follows way

mutual

/-- The ways to the leaves, in the order of the leaves. -/
def leafWays : Validation → List (List Segment)
  | .clean => []
  | .leaf _ => [[]]
  | .list items => itemsWays 0 items
  | .map entries => entriesWays entries

/-- The ways to the leaves in items, from a position on. -/
def itemsWays (position : Nat) : List Validation → List (List Segment)
  | [] => []
  | item :: rest => (leafWays item).map (.item position :: ·) ++ itemsWays (position + 1) rest

/-- The ways to the leaves in entries. -/
def entriesWays : List (String × Validation) → List (List Segment)
  | [] => []
  | (key, entry) :: rest => (leafWays entry).map (.property key :: ·) ++ entriesWays rest

end

/-- The children, each behind the segment that leads to it. -/
def steps : Validation → List (Segment × Validation)
  | .list items => items.zipIdx.map fun x => (.item x.2, x.1)
  | .map entries => entries.map fun e => (.property e.1, e.2)
  | .clean | .leaf _ => []

/-- The ways to the leaves go on from the steps to the children. -/
theorem leafWays_eq (tree : Validation) :
    tree.leafWays = (tree.leaf?.toList.map fun _ => []) ++
      tree.steps.flatMap fun step => step.2.leafWays.map (step.1 :: ·) := by
  have hitems (position : Nat) (items : List Validation) :
      itemsWays position items = (items.zipIdx position).flatMap fun x =>
        x.1.leafWays.map (.item x.2 :: ·) := by
    induction items generalizing position with
    | nil => rfl
    | cons item rest ih => rw [itemsWays, ih, List.zipIdx_cons, List.flatMap_cons]
  have hentries (entries : List (String × Validation)) :
      entriesWays entries = entries.flatMap fun e => e.2.leafWays.map (.property e.1 :: ·) := by
    induction entries with
    | nil => rfl
    | cons e rest ih => rw [entriesWays, ih, List.flatMap_cons]
  cases tree with
  | clean => rfl
  | leaf error => rfl
  | list items =>
    rw [leafWays, hitems, steps, List.flatMap_map]
    rfl
  | map entries =>
    rw [leafWays, hentries, steps, List.flatMap_map]
    rfl

/-- The steps lead to the children in order. -/
theorem map_snd_steps (tree : Validation) : tree.steps.map Prod.snd = tree.children := by
  cases tree with
  | clean => rfl
  | leaf error => rfl
  | list items =>
    rw [steps, List.map_map]
    exact List.zipIdx_map_fst 0 items
  | map entries =>
    rw [steps, List.map_map]
    rfl

/-- Different steps have different segments, if no key is there twice. -/
theorem nodup_segments {tree : Validation} (h : tree.keys.Nodup) :
    (tree.steps.map Prod.fst).Nodup := by
  cases tree with
  | clean => exact List.nodup_nil
  | leaf error => exact List.nodup_nil
  | list items =>
    have heq : (list items).steps.map Prod.fst = (items.zipIdx.map Prod.snd).map .item := by
      rw [steps, List.map_map, List.map_map]
      rfl
    rw [heq, List.zipIdx_map_snd]
    exact (List.nodup_range' 1).map fun _ _ hsame => Segment.item.inj hsame
  | map entries =>
    have heq : (map entries).steps.map Prod.fst = (Entries.keys entries).map .property := by
      rw [steps, Entries.keys, List.map_map, List.map_map]
      rfl
    rw [heq]
    exact List.Nodup.map (fun _ _ hsame => Segment.property.inj hsame) h

/-- The steps are those of the keys and positions that the tree has, to what is found there. -/
theorem mem_steps {tree child : Validation} {segment : Segment} (h : tree.keys.Nodup) :
    (segment, child) ∈ tree.steps ↔ tree.Has segment ∧ tree.part segment = child := by
  cases tree with
  | clean => simp [steps, Has]
  | leaf error => simp [steps, Has]
  | list items =>
    simp only [steps, List.mem_map, Prod.mk.injEq, Prod.exists, List.mem_zipIdx_iff_getElem?]
    cases segment with
    | property name => simp [Has]
    | item position =>
      constructor
      · rintro ⟨_, _, hitem, ⟨⟩, rfl⟩
        refine ⟨(List.getElem?_eq_some_iff.1 hitem).1, ?_⟩
        rw [part, index, hitem, Option.getD_some]
      · rintro ⟨hposition, rfl⟩
        refine ⟨items[position], position, List.getElem?_eq_getElem hposition, rfl, ?_⟩
        rw [part, index, List.getElem?_eq_getElem hposition, Option.getD_some]
  | map entries =>
    simp only [steps, List.mem_map, Prod.mk.injEq, Prod.exists]
    cases segment with
    | item position => simp [Has]
    | property name =>
      constructor
      · rintro ⟨_, _, he, ⟨⟩, rfl⟩
        refine ⟨List.mem_map_of_mem he, ?_⟩
        -- No other entry has the key, so the look-up comes to this one.
        rw [part, prop, Entries.get?_of_mem h he, Option.getD_some]
      · rintro ⟨hname, rfl⟩
        obtain ⟨entry, hentry⟩ :=
          Option.isSome_iff_exists.1 ((Entries.get?_isSome name entries).2 hname)
        refine ⟨name, entry, Entries.mem_of_get? hentry, rfl, ?_⟩
        rw [part, prop, hentry, Option.getD_some]

/-- Where a step leads is a child. -/
theorem mem_children_of_mem_steps {tree : Validation} {step : Segment × Validation}
    (h : step ∈ tree.steps) : step.2 ∈ tree.children := by
  rw [← map_snd_steps]
  exact List.mem_map_of_mem h

/-- The way that stays where it is leads to a leaf exactly if the tree is one. -/
theorem nil_mem_leafWays {tree : Validation} :
    [] ∈ tree.leafWays ↔ ∃ error, tree = .leaf error := by
  rw [leafWays_eq]
  simp [← leaf?_eq_some, ← Option.ne_none_iff_exists']

/-- The other ways to leaves go on from a step. -/
theorem cons_mem_leafWays {tree : Validation} {segment : Segment} {way : List Segment} :
    segment :: way ∈ tree.leafWays ↔
      ∃ child, (segment, child) ∈ tree.steps ∧ way ∈ child.leafWays := by
  rw [leafWays_eq]
  simp

/-- The ways to the leaves are those of keys and positions that end at one. -/
theorem mem_leafWays {tree : Validation} (h : tree.KeysDistinct) (way : List Segment) :
    way ∈ tree.leafWays ↔ tree.Follows way ∧ ∃ error, tree.partAt way = .leaf error := by
  induction way generalizing tree with
  | nil =>
    rw [nil_mem_leafWays]
    exact (and_iff_right trivial).symm
  | cons segment way ih =>
    -- The rest of the way is one of the child, which has distinct keys as well.
    obtain ⟨here, child⟩ := h
    rw [cons_mem_leafWays]
    constructor
    · rintro ⟨c, hstep, hway⟩
      obtain ⟨hhas, rfl⟩ := (mem_steps here).1 hstep
      obtain ⟨hfollows, hleaf⟩ := (ih (child _ (mem_children_of_mem_steps hstep))).1 hway
      exact ⟨⟨hhas, hfollows⟩, hleaf⟩
    · rintro ⟨⟨hhas, hfollows⟩, hleaf⟩
      have hstep := (mem_steps here).2 ⟨hhas, rfl⟩
      exact ⟨_, hstep, (ih (child _ (mem_children_of_mem_steps hstep))).2 ⟨hfollows, hleaf⟩⟩

/-- No way to a leaf is listed twice. -/
theorem nodup_leafWays {tree : Validation} (h : tree.KeysDistinct) : tree.leafWays.Nodup := by
  induction h with
  | @intro tree here child ih =>
    have hapart : tree.steps.Pairwise fun step other => step.1 ≠ other.1 :=
      List.pairwise_map.1 (nodup_segments here)
    rw [leafWays_eq, List.nodup_append, List.nodup_flatMap]
    refine ⟨?_, ⟨fun step hstep => ?_, hapart.imp fun {step other} hne => ?_⟩, ?_⟩
    · cases tree.leaf? <;> simp
    · exact (ih _ (mem_children_of_mem_steps hstep)).map List.cons_injective
    · -- Ways that go on from different steps begin with different segments.
      rintro _ hway hother
      obtain ⟨way, -, rfl⟩ := List.mem_map.1 hway
      obtain ⟨_, -, hsame⟩ := List.mem_map.1 hother
      exact hne (List.cons.inj hsame).1.symm
    · rintro _ hhere _ hfurther rfl
      obtain ⟨_, -, rfl⟩ := List.mem_map.1 hhere
      simp at hfurther

/-- At the ends of the ways to the leaves are the leaves, in order. -/
theorem map_partAt_leafWays {tree : Validation} (h : tree.KeysDistinct) :
    tree.leafWays.map tree.partAt = tree.leaves.map .leaf := by
  induction h with
  | @intro tree here child ih =>
    -- A leaf is found where it is, and what is below a step is found by way of the step.
    have hhere : (tree.leaf?.toList.map fun _ => []).map tree.partAt =
        tree.leaf?.toList.map .leaf := by
      cases hleaf : tree.leaf? with
      | none => rfl
      | some error =>
        rw [leaf?_eq_some.1 hleaf]
        rfl
    have hstep (step : Segment × Validation) (hmem : step ∈ tree.steps) :
        (step.2.leafWays.map (step.1 :: ·)).map tree.partAt = step.2.leaves.map .leaf := by
      have hpart : tree.part step.1 = step.2 := ((mem_steps here).1 hmem).2
      rw [← ih _ (mem_children_of_mem_steps hmem), List.map_map, ← hpart]
      rfl
    rw [leafWays_eq, leaves_eq, List.map_append, List.map_append, hhere, List.map_flatMap,
      List.flatMap_congr hstep, ← map_snd_steps, List.map_flatMap, List.flatMap_map]

/-- A tree has errors exactly if keys and positions lead to one. -/
theorem hasErrors_iff_exists_way {tree : Validation} (h : tree.KeysDistinct) :
    tree.hasErrors = true ↔ ∃ way error, tree.Follows way ∧ tree.partAt way = .leaf error := by
  -- There are as many ways to errors as there are errors.
  have hempty : tree.leaves = [] ↔ tree.leafWays = [] := by
    rw [← List.map_eq_nil_iff (f := leaf), ← map_partAt_leafWays h, List.map_eq_nil_iff]
  rw [hasErrors_iff, Ne, hempty, List.eq_nil_iff_forall_not_mem]
  simp only [mem_leafWays h, not_forall, not_not, exists_and_left]

/-- Without errors in the tree there are none at the end of a way. -/
theorem hasErrors_of_partAt {tree : Validation} {way : List Segment}
    (h : (tree.partAt way).hasErrors = true) : tree.hasErrors = true := by
  rw [hasErrors_iff] at h ⊢
  -- A run of no errors has none.
  intro hnone
  have hinfix := tree.leaves_partAt way
  rw [hnone] at hinfix
  exact h (List.eq_nil_of_infix_nil hinfix)

/-- Outside of maps a name that reads as a position leads to that position. -/
theorem prop_eq_index {tree : Validation} (h : ∀ entries, tree ≠ .map entries) {text : String}
    {n : Nat} (htext : Text.IsPosition text n) : tree.prop text = tree.index n := by
  cases tree with
  | clean => rfl
  | leaf error => rfl
  | list items => rw [prop, index, Text.readPosition?_eq_some.2 htext, Option.bind_some]
  | map entries => exact absurd rfl (h entries)

end Validation

/-! ## The trees of walks -/

namespace Verdict

open Validation (KeysDistinct)

/-- A tree without parts has no keys. -/
theorem IsPlain.keysDistinct {v : Verdict} (h : v.IsPlain) : v.validation.KeysDistinct := by
  obtain ⟨value, rfl⟩ | ⟨error, rfl⟩ := h
  · exact .intro List.nodup_nil nofun
  · exact .intro List.nodup_nil nofun

/-- In a list no key is there twice if none is in an item. -/
theorem keysDistinct_ofItems {items : List Verdict} (h : ∀ v ∈ items, v.validation.KeysDistinct) :
    (ofItems items).validation.KeysDistinct := by
  refine .intro List.nodup_nil fun c hc => ?_
  obtain ⟨v, hv, rfl⟩ := List.mem_map.1 hc
  exact h v hv

/-- In an object no key is there twice if its own are distinct and none is in an entry. -/
theorem keysDistinct_ofEntries {entries : List (String × Verdict)} (here : Entries.Distinct entries)
    (h : ∀ e ∈ entries, e.2.validation.KeysDistinct) :
    (ofEntries entries).validation.KeysDistinct := by
  refine .intro (Entries.distinct_map here fun e => e.2.validation) fun c hc => ?_
  obtain ⟨_, htree, rfl⟩ := List.mem_map.1 hc
  obtain ⟨e, he, rfl⟩ := List.mem_map.1 htree
  exact h e he

/-- The tree of an entry of a record is that of its key or of its value. -/
theorem keysDistinct_ofKeyed {key value : Verdict} (hkey : key.validation.KeysDistinct)
    (hvalue : value.validation.KeysDistinct) : (ofKeyed key value).validation.KeysDistinct := by
  unfold ofKeyed
  split
  · exact hvalue
  · exact hkey
  · exact hvalue

end Verdict

/-- No map in the tree of a walk has a key twice, if no object of the schema or of the input
does. -/
theorem Schema.keysDistinct_verdict (schema : Schema) (input : Value)
    (hnames : schema.NamesDistinct) (hinput : input.Valid) :
    (schema.verdict input).validation.KeysDistinct := by
  induction schema, input using walk_induct with
  | settled h =>
    rw [verdict_settled h]
    exact h.isPlain.keysDistinct
  | union present => exact (isPlain_verdict_union _ _ _ _ present).keysDistinct
  | list h ih =>
    rw [verdict_list h]
    refine Verdict.keysDistinct_ofItems fun v hv => ?_
    obtain ⟨part, hpart, rfl⟩ := List.mem_map.1 hv
    have hitem : part.2.Valid := by
      rw [input_of_listParts h] at hinput
      exact Value.valid_array.1 hinput _ (List.mem_map_of_mem hpart)
    exact ih part hpart (hnames.child (mem_of_listParts h hpart).1) hitem
  | @object properties m entries ih =>
    rw [verdict_object]
    refine Verdict.keysDistinct_ofEntries (Entries.distinct_map hnames.here _) fun e he => ?_
    obtain ⟨p, hp, rfl⟩ := List.mem_map.1 he
    exact ih p hp (hnames.child (mem_children_object hp m)) (hinput.get p.1)
  | @record keys values m entries ih =>
    obtain ⟨hkeys, hentries⟩ := Value.valid_object.1 hinput
    rw [verdict_record]
    refine Verdict.keysDistinct_ofEntries (distinct_append_missingIn keys values hkeys _ _)
      fun _ hkeyed => ?_
    rcases List.mem_append.1 hkeyed with hentry | hmissing
    · obtain ⟨e, he, rfl⟩ := List.mem_map.1 hentry
      refine Verdict.keysDistinct_ofKeyed (keys.isPlain_verdict e.1).keysDistinct ?_
      exact ih e he (hnames.child (mem_children_record keys values m)) (hentries e he)
    · obtain ⟨key, -, rfl⟩ := List.mem_map.1 hmissing
      exact Verdict.IsPlain.keysDistinct (.inr ⟨_, rfl⟩)

namespace Validation

/-- What is found in a tree is what the tree tells. The errors at the end of any way are a run of
those of the tree, so that nothing is found in a tree without errors, and from a leaf or from where
nothing has failed no step leads on. The other way round a tree has errors exactly if there are some
to tell, and exactly if keys and positions lead to a leaf. There is one such way for each error, in
their order. Outside of maps, positions can be given as numerals. -/
theorem partAt_sound_complete (tree : Validation) :
    (∀ way, (tree.partAt way).leaves <:+: tree.leaves ∧
      ((tree.partAt way).hasErrors = true → tree.hasErrors = true)) ∧
    (∀ way more error, tree.partAt way = .leaf error →
      tree.partAt (way ++ more) = .leaf error) ∧
    (∀ way more, tree.partAt way = .clean → tree.partAt (way ++ more) = .clean) ∧
    (tree.hasErrors = true ↔ tree.leaves ≠ []) ∧
    (tree.KeysDistinct →
      (tree.hasErrors = true ↔ ∃ way error, tree.Follows way ∧ tree.partAt way = .leaf error) ∧
      ∃ ways : List (List Segment), ways.Nodup ∧
        (∀ way, way ∈ ways ↔ tree.Follows way ∧ ∃ error, tree.partAt way = .leaf error) ∧
        ways.map tree.partAt = tree.leaves.map .leaf) ∧
    ∀ text n, (∀ entries, tree ≠ .map entries) → Text.IsPosition text n →
      tree.prop text = tree.index n := by
  refine ⟨fun way => ⟨tree.leaves_partAt way, hasErrors_of_partAt⟩, fun way more error hleaf => ?_,
    fun way more hclean => ?_, tree.hasErrors_iff, fun h => ⟨hasErrors_iff_exists_way h, ?_⟩,
    fun text n hmap htext => prop_eq_index hmap htext⟩
  · rw [partAt_append, hleaf, partAt_leaf]
  · rw [partAt_append, hclean, partAt_clean]
  · exact ⟨tree.leafWays, nodup_leafWays h, mem_leafWays h, map_partAt_leafWays h⟩

/-- The tree of a text among numbers and of null in the place of a text. -/
def brokenCounts : Validation :=
  ((Schema.object [("counts", .array (.primitive .number) .none), ("name", .primitive .string)]
    .none).verdict (.object [("name", .null), ("counts", .array [.number .zero, .string "x"])]))
      |>.validation

/-- The tree has no key twice, and both of its errors are found. -/
theorem partAt_sound_complete_brokenCounts :
    brokenCounts.KeysDistinct ∧
      brokenCounts.partAt [.property "counts", .item 1, .property "a", .item 7] =
        .leaf "\"x\" is not a number." ∧
      (∃ ways : List (List Segment), ways.Nodup ∧ ways.map brokenCounts.partAt =
        [.leaf "\"x\" is not a number.", .leaf "null is not allowed."]) ∧
      Text.IsPosition "+01" 1 ∧ (∀ entries, brokenCounts.prop "counts" ≠ .map entries) ∧
      (brokenCounts.prop "counts").prop "+01" = .leaf "\"x\" is not a number." := by
  have hnames : (Schema.object [("counts", .array (.primitive .number) .none),
      ("name", .primitive .string)] .none).NamesDistinct := by decide
  have hkeys : brokenCounts.KeysDistinct := by
    refine Schema.keysDistinct_verdict _ _ hnames ?_
    simp [Value.Valid, Value.ValidEntries, Value.ValidItems, Entries.Distinct]
  have hleaf : brokenCounts.partAt [.property "counts", .item 1] =
      .leaf "\"x\" is not a number." := rfl
  have hmap (entries : List (String × Validation)) :
      brokenCounts.prop "counts" ≠ .map entries := by
    intro h
    cases h
  have hposition : Text.IsPosition "+01" 1 := ⟨by decide, "+", 1, .inr rfl, rfl⟩
  obtain ⟨-, hstays, -, -, hways, -⟩ := partAt_sound_complete brokenCounts
  obtain ⟨-, ways, hnodup, -, hleaves⟩ := hways hkeys
  refine ⟨hkeys, hstays _ [.property "a", .item 7] _ hleaf, ⟨ways, hnodup, hleaves⟩, hposition,
    hmap, ?_⟩
  obtain ⟨-, -, -, -, -, hnumeral⟩ := partAt_sound_complete (brokenCounts.prop "counts")
  rw [hnumeral "+01" 1 hmap hposition]
  rfl

end Validation

end Conform

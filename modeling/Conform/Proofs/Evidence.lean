import Conform.Proofs.Path
import Conform.Proofs.Verdict
import Mathlib.Tactic.ByContra

/-!
# The outcome in the log

The log of an accepted value need not be empty: a union walks all its members, and the errors of
those that reject stay. But every one of them has `{union(` in its path, and a rejected value has
an error without. `outcome_invalid_iff_outside_unions` says so of every walk in which no name has a
brace, so that a path shows only the unions it leads through.

The two directions are inductions along the walk. `forall_messages_of_valid` says that an accepted
value leaves no message but those of the members of unions, and `exists_braceFree_of_invalid` that
a rejected value leaves one on the way to which there is no union.
-/

namespace Conform

/-- The path leads through a member of a union, as far as can be seen from its text. -/
def InUnion (path : String) : Prop := "\x7bunion(".toList <:+: path.toList

/-- The text has no opening brace. -/
def BraceFree (text : String) : Prop := '\x7b' ∉ text.toList

/-- The path of a property has no brace if its name has none. -/
theorem BraceFree.propertyPath {path name : String} (h : BraceFree path) (hname : BraceFree name) :
    BraceFree (propertyPath path name) :=
  Text.Lacks.propertyPath h hname (by decide)

/-- The path of an item has no brace. -/
theorem BraceFree.itemPath {path : String} (h : BraceFree path) (position : Nat) :
    BraceFree (itemPath path position) :=
  Text.Lacks.itemPath h (by decide) (by decide) position

/-- A path without braces leads through no union. -/
theorem BraceFree.not_inUnion {path : String} (h : BraceFree path) : ¬ InUnion path :=
  fun hin => h (hin.subset (by simp))

/-- The path of every message of a member leads through its union. -/
theorem inUnion_under_memberPath (m : Message) (path : String) (position : Nat) :
    InUnion (m.under (memberPath path position)).path := by
  simp only [InUnion, Message.under, memberPath, String.toList_append, List.append_assoc]
  exact List.infix_append' ..

/-- A plain verdict that fails leaves its message where it stands. -/
theorem Verdict.IsPlain.exists_ownMessages {v : Verdict} (h : v.IsPlain)
    (hinvalid : v.outcome = .invalid) {path : String} (hpath : BraceFree path) :
    ∃ m ∈ v.ownMessages path, BraceFree m.path := by
  rcases h with ⟨value, rfl⟩ | ⟨error, rfl⟩
  · cases hinvalid
  · exact ⟨⟨path, error⟩, List.mem_singleton_self _, hpath⟩

/-- A plain verdict that passes leaves no message. -/
theorem Verdict.IsPlain.ownMessages_eq_nil {v : Verdict} (h : v.IsPlain)
    (hvalid : v.outcome ≠ .invalid) (path : String) : v.ownMessages path = [] := by
  rcases h with ⟨value, rfl⟩ | ⟨error, rfl⟩
  · rfl
  · exact absurd rfl hvalid

namespace Schema

/-- The names that a node may put into a path: those of the properties of an object, and the texts
of the literals among which a record has its keys. -/
def ownNames : Schema → List String
  | .object properties _ => Entries.keys properties
  | .record (.options literals) _ _ => literals.map Literal.toText
  | _ => []

/-- No name in the schema has a brace. -/
def NamesBraceFree (schema : Schema) : Prop :=
  schema.Every fun node => ∀ name ∈ node.ownNames, BraceFree name

end Schema

namespace Value

/-- The keys of the value itself, if it is an object. -/
def ownKeys : Value → List String
  | .object entries => Entries.keys entries
  | _ => []

/-- No key in the value has a brace. -/
def KeysBraceFree (value : Value) : Prop :=
  value.Every fun part => ∀ key ∈ part.ownKeys, BraceFree key

/-- What an object has under a name has no keys with braces if the object has none. -/
theorem KeysBraceFree.get {value : Value} (h : value.KeysBraceFree) (name : String) :
    (value.get name).KeysBraceFree :=
  Every.get h (fun _ hkey => absurd hkey List.not_mem_nil) name

end Value

/-- A missing key is the text of one of the literals. -/
theorem mem_of_mem_missingKeys {present : List String} {literals : List Literal} {key : String}
    (h : key ∈ missingKeys present literals) : key ∈ literals.map Literal.toText := by
  induction literals generalizing present with
  | nil => exact absurd h List.not_mem_nil
  | cons l rest ih =>
    rw [missingKeys] at h
    rw [List.map_cons]
    split at h
    · exact List.mem_cons_of_mem _ (ih h)
    · rcases List.mem_cons.1 h with rfl | h
      · exact List.mem_cons_self
      · exact List.mem_cons_of_mem _ (ih h)

namespace Schema

/-- A key that a record misses is one of its names. -/
theorem mem_ownNames_of_mem_missingIn {keys : KeyCheck} {values : Schema} (m : Modifiers)
    {entries : List (String × Value)} {key : String} (h : key ∈ missingIn keys values entries) :
    key ∈ (record keys values m).ownNames := by
  cases keys with
  | primitive p => exact absurd h List.not_mem_nil
  | options literals =>
    rw [missingIn, KeyCheck.missing] at h
    split at h
    · exact absurd h List.not_mem_nil
    · exact mem_of_mem_missingKeys h

/-! ## Accepted values -/

/-- A value that is accepted leaves no message but those of members of unions. -/
theorem forall_messages_of_valid {P : Message → Prop} (schema : Schema) (input : Value)
    (hunion : schema.Every fun node =>
      node.isUnion = true → ∀ (m : Message) (path : String) (position : Nat),
        P (m.under (memberPath path position)))
    (hvalid : (schema.verdict input).outcome ≠ .invalid) (path : String) :
    ∀ m ∈ schema.messages input path, P m := by
  induction schema, input using walk_induct generalizing path with
  | settled h =>
    rw [verdict_settled h] at hvalid
    rw [messages_settled h]
    rw [h.isPlain.ownMessages_eq_nil hvalid]
    exact List.forall_mem_nil _
  | @union first second third m input present ih =>
    have hplain := isPlain_verdict_union first second third m present
    rw [messages_union first second third m present, hplain.ownMessages_eq_nil hvalid,
      List.append_nil]
    intro message hmessage
    -- Whatever the member has come to, its messages are under its path.
    obtain ⟨x, -, hx⟩ := List.mem_flatMap.1 hmessage
    rw [messages_eq_under] at hx
    obtain ⟨inner, -, rfl⟩ := List.mem_map.1 hx
    exact hunion.here rfl inner path x.2
  | @list schema input parts h ih =>
    rw [verdict_list h, Ne, Verdict.ofItems_invalid, not_exists] at hvalid
    rw [messages_list h]
    intro message hmessage
    obtain ⟨x, hx, hmem⟩ := List.mem_flatMap.1 hmessage
    have hpart := List.fst_mem_of_mem_zipIdx hx
    have hpass : (x.1.1.verdict x.1.2).outcome ≠ .invalid :=
      fun hfail => hvalid _ ⟨List.mem_map_of_mem hpart, hfail⟩
    exact ih x.1 hpart (hunion.child (mem_of_listParts h hpart).1) hpass _ message hmem
  | @object properties m entries ih =>
    rw [verdict_object, Ne, Verdict.ofEntries_invalid, not_exists] at hvalid
    rw [messages_object]
    intro message hmessage
    obtain ⟨p, hp, hmem⟩ := List.mem_flatMap.1 hmessage
    have hpass : (p.2.verdict ((Value.object entries).get p.1)).outcome ≠ .invalid :=
      fun hfail => hvalid _ ⟨List.mem_map_of_mem hp, hfail⟩
    exact ih p hp (hunion.child (List.mem_map_of_mem hp)) hpass _ message hmem
  | @record keys values m entries ih =>
    rw [Ne, verdict_record_invalid, not_or, not_not, not_exists] at hvalid
    obtain ⟨hentries, hmissing⟩ := hvalid
    rw [messages_record, hmissing, List.map_nil, List.append_nil]
    intro message hmessage
    obtain ⟨e, he, hmem⟩ := List.mem_flatMap.1 hmessage
    obtain ⟨hkey, hvalue⟩ := not_or.1 fun hfail => hentries e ⟨he, hfail⟩
    rw [(keys.isPlain_verdict e.1).ownMessages_eq_nil hkey, List.nil_append] at hmem
    exact ih e he (hunion.child (List.mem_singleton_self values)) hvalue _ message hmem

/-- All messages that an accepted value leaves are in unions. -/
theorem forall_inUnion_of_valid (schema : Schema) (input : Value)
    (hvalid : (schema.verdict input).outcome ≠ .invalid) (path : String) :
    ∀ m ∈ schema.messages input path, InUnion m.path :=
  forall_messages_of_valid schema input
    (.of_forall (fun _ _ => inUnion_under_memberPath) schema) hvalid path

/-- Without unions, an accepted value leaves no messages. -/
theorem messages_eq_nil_of_valid (schema : Schema) (input : Value) (hunion : schema.UnionFree)
    (hvalid : (schema.verdict input).outcome ≠ .invalid) (path : String) :
    schema.messages input path = [] := by
  refine List.eq_nil_iff_forall_not_mem.2 (forall_messages_of_valid schema input ?_ hvalid path)
  exact hunion.mono fun node hnode hisUnion => by simp [hnode] at hisUnion

/-! ## Rejected values -/

/-- A value that is rejected leaves a message on a path with no brace, if no name has one. -/
theorem exists_braceFree_of_invalid (schema : Schema) (input : Value)
    (hschema : schema.NamesBraceFree) (hinput : input.KeysBraceFree)
    (hinvalid : (schema.verdict input).outcome = .invalid) {path : String}
    (hpath : BraceFree path) : ∃ m ∈ schema.messages input path, BraceFree m.path := by
  induction schema, input using walk_induct generalizing path with
  | settled h =>
    rw [verdict_settled h] at hinvalid
    rw [messages_settled h]
    exact h.isPlain.exists_ownMessages hinvalid hpath
  | @union first second third m input present ih =>
    have hplain := isPlain_verdict_union first second third m present
    -- The error of the union itself is behind those of its members.
    obtain ⟨message, hmem, hfree⟩ := hplain.exists_ownMessages hinvalid hpath
    rw [messages_union first second third m present]
    exact ⟨message, List.mem_append_right _ hmem, hfree⟩
  | @list schema input parts h ih =>
    rw [verdict_list h, Verdict.ofItems_invalid] at hinvalid
    obtain ⟨v, hv, hfail⟩ := hinvalid
    obtain ⟨part, hpart, rfl⟩ := List.mem_map.1 hv
    obtain ⟨hs, hi⟩ := mem_of_listParts h hpart
    obtain ⟨position, hposition⟩ := List.mem_iff_getElem?.1 hpart
    have hx : (part, position) ∈ parts.zipIdx := List.mk_mem_zipIdx_iff_getElem?.2 hposition
    obtain ⟨message, hmem, hfree⟩ := ih part hpart (hschema.child hs) (hinput.child hi) hfail
      (hpath.itemPath position)
    rw [messages_list h]
    exact ⟨message, List.mem_flatMap.2 ⟨_, hx, hmem⟩, hfree⟩
  | @object properties m entries ih =>
    rw [verdict_object, Verdict.ofEntries_invalid] at hinvalid
    obtain ⟨v, hv, hfail⟩ := hinvalid
    obtain ⟨p, hp, rfl⟩ := List.mem_map.1 hv
    have hname : BraceFree p.1 := hschema.here p.1 (List.mem_map_of_mem hp)
    obtain ⟨message, hmem, hfree⟩ := ih p hp (hschema.child (List.mem_map_of_mem hp))
      (hinput.get p.1) hfail (hpath.propertyPath hname)
    rw [messages_object]
    exact ⟨message, List.mem_flatMap.2 ⟨p, hp, hmem⟩, hfree⟩
  | @record keys values m entries ih =>
    rw [messages_record]
    -- A key or a value has failed, or a key is missing, and each of these leaves its error.
    rcases (verdict_record_invalid keys values m entries).1 hinvalid with
      ⟨e, he, hkey | hvalue⟩ | hmissing
    · have hfree : BraceFree e.1 := hinput.here e.1 (List.mem_map_of_mem he)
      obtain ⟨message, hmem, hfree⟩ :=
        (keys.isPlain_verdict e.1).exists_ownMessages hkey (hpath.propertyPath hfree)
      exact ⟨message, List.mem_append_left _ (List.mem_flatMap.2 ⟨e, he,
        List.mem_append_left _ hmem⟩), hfree⟩
    · have hfree : BraceFree e.1 := hinput.here e.1 (List.mem_map_of_mem he)
      obtain ⟨message, hmem, hfree⟩ := ih e he (hschema.child (List.mem_singleton_self values))
        (hinput.child (List.mem_map_of_mem he)) hvalue (hpath.propertyPath hfree)
      exact ⟨message, List.mem_append_left _ (List.mem_flatMap.2 ⟨e, he,
        List.mem_append_right _ hmem⟩), hfree⟩
    · obtain ⟨key, hkey⟩ := List.exists_mem_of_ne_nil _ hmissing
      have hfree : BraceFree key := hschema.here key (mem_ownNames_of_mem_missingIn m hkey)
      exact ⟨_, List.mem_append_right _ (List.mem_map_of_mem hkey), hpath.propertyPath hfree⟩

/-! ## The log -/

/-- A walk fails exactly if it leaves a message outside all unions. -/
theorem outcome_invalid_iff_outside_unions (schema : Schema) (input : Value)
    (hschema : schema.NamesBraceFree) (hinput : input.KeysBraceFree) (path : String) (log : Log) :
    ∃ added : List Message,
      (schema.walk input path log).2.toList = log.toList ++ added.map (Message.under path) ∧
        ((schema.walk input path log).1.outcome = .invalid ↔ ∃ m ∈ added, ¬ InUnion m.path) ∧
        (schema.UnionFree →
          ((schema.walk input path log).1.outcome.isValid = true ↔ added = [])) := by
  rw [walk_eq]
  have hlog : (log ++ (schema.messages input path).toArray).toList =
      log.toList ++ (schema.messages input "").map (Message.under path) := by
    rw [messages_eq_under schema input path]
    simp
  have hempty : BraceFree "" := by simp [BraceFree]
  have hrejected (hinvalid : (schema.verdict input).outcome = .invalid) :
      ∃ m ∈ schema.messages input "", ¬ InUnion m.path := by
    obtain ⟨m, hm, hfree⟩ := exists_braceFree_of_invalid schema input hschema hinput hinvalid hempty
    exact ⟨m, hm, hfree.not_inUnion⟩
  refine ⟨schema.messages input "", hlog, ⟨hrejected, ?_⟩, fun hunion => ?_⟩
  · rintro ⟨m, hm, hout⟩
    by_contra hvalid
    exact hout (forall_inUnion_of_valid schema input hvalid "" m hm)
  · rw [Outcome.isValid_iff]
    refine ⟨fun hvalid => messages_eq_nil_of_valid schema input hunion hvalid "", ?_⟩
    intro hnil hinvalid
    obtain ⟨m, hm, -⟩ := hrejected hinvalid
    rw [hnil] at hm
    exact absurd hm List.not_mem_nil

/-- Where an object has a number or a text under `id` and is given a text, no name has a brace, so
the error of the first member is told from a failure by its path. -/
theorem outcome_invalid_iff_of_text_id :
    (objectOf [("id", union2 (primitive .number) (primitive .string))]).NamesBraceFree ∧
      (Value.object [("id", .string "x")]).KeysBraceFree ∧
      ∃ added : List Message,
        ((objectOf [("id", union2 (primitive .number) (primitive .string))]).walk
          (.object [("id", .string "x")]) "root" #[]).2.toList =
            (#[] : Log).toList ++ added.map (Message.under "root") ∧
        (((objectOf [("id", union2 (primitive .number) (primitive .string))]).walk
          (.object [("id", .string "x")]) "root" #[]).1.outcome = .invalid ↔
            ∃ m ∈ added, ¬ InUnion m.path) ∧
        ((objectOf [("id", union2 (primitive .number) (primitive .string))]).UnionFree →
          (((objectOf [("id", union2 (primitive .number) (primitive .string))]).walk
            (.object [("id", .string "x")]) "root" #[]).1.outcome.isValid = true ↔
              added = [])) := by
  have hleaf (p : Primitive) : (primitive p).NamesBraceFree :=
    .intro (fun name hname => absurd hname List.not_mem_nil)
      fun child hchild => absurd hchild List.not_mem_nil
  have hid : BraceFree "id" := by simp [BraceFree]
  have hunion : (union2 (primitive .number) (primitive .string)).NamesBraceFree :=
    .intro (fun name hname => absurd hname List.not_mem_nil)
      (List.forall_mem_cons.2 ⟨hleaf .number, List.forall_mem_singleton.2 (hleaf .string)⟩)
  have hschema :
      (objectOf [("id", union2 (primitive .number) (primitive .string))]).NamesBraceFree :=
    .intro (List.forall_mem_singleton.2 hid) (List.forall_mem_singleton.2 hunion)
  have htext : (Value.string "x").KeysBraceFree :=
    .intro (fun key hkey => absurd hkey List.not_mem_nil)
      fun child hchild => absurd hchild List.not_mem_nil
  have hinput : (Value.object [("id", .string "x")]).KeysBraceFree :=
    .intro (List.forall_mem_singleton.2 hid) (List.forall_mem_singleton.2 htext)
  exact ⟨hschema, hinput, outcome_invalid_iff_outside_unions _ _ hschema hinput _ _⟩

end Schema

end Conform

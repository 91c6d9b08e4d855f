import Conform.Proofs.Acceptance
import Conform.Proofs.Alike
import Conform.Proofs.Build

/-!
# The order of entries does not matter

Two equal values may have the entries of their objects in different orders, at any depth, and zeros
of different signs. `evaluate_alike` says what a validation makes of that: both values pass, with
equal results, or both fail, their trees are the same but for the order of entries, and the messages
are the same but for the order in which records come across their entries. A schema without records
goes by its own order and leaves the same messages.

The proof follows two walks at once (`Agrees`): their verdicts are alike, and their messages are
`Reordered`. `agrees_of_alike` is the induction along the walk of the one value, in which each step
of the other is found from how the values are alike.
-/

namespace Conform

/-! ## Keys that are missing -/

/-- Which keys are missing depends on which are present only. -/
theorem missingKeys_congr {present others : List String} (h : ∀ key, key ∈ present ↔ key ∈ others)
    (literals : List Literal) : missingKeys present literals = missingKeys others literals := by
  induction literals generalizing present others with
  | nil => rfl
  | cons l rest ih =>
    have hcons (key : String) : key ∈ l.toText :: present ↔ key ∈ l.toText :: others := by
      rw [List.mem_cons, List.mem_cons, h]
    rw [missingKeys, missingKeys, ih h, ih hcons]
    simp only [h]

/-- No key is told to be missing that is present, and none is told twice. -/
theorem nodup_append_missingKeys {present : List String} (h : present.Nodup)
    (literals : List Literal) : (present ++ missingKeys present literals).Nodup := by
  induction literals generalizing present with
  | nil =>
    rw [missingKeys, List.append_nil]
    exact h
  | cons l rest ih =>
    rw [missingKeys]
    split
    · exact ih h
    · rename_i hl
      exact List.perm_middle.nodup_iff.2 (ih (List.nodup_cons.2 ⟨hl, h⟩))

/-- A record asks for the same keys if the same are present. -/
theorem KeyCheck.missing_congr (keys : KeyCheck) (optional : Bool) {present others : List String}
    (h : present.Perm others) : keys.missing present optional = keys.missing others optional := by
  cases keys with
  | primitive p => rfl
  | options literals =>
    simp only [KeyCheck.missing, missingKeys_congr (fun key => h.mem_iff) literals]

/-- A record asks for no key that is present, and for none twice. -/
theorem KeyCheck.nodup_append_missing (keys : KeyCheck) (optional : Bool) {present : List String}
    (h : present.Nodup) : (present ++ keys.missing present optional).Nodup := by
  have hnone : (present ++ []).Nodup := (List.append_nil present).symm ▸ h
  cases keys with
  | primitive p => exact hnone
  | options literals =>
    cases optional with
    | true => exact hnone
    | false => exact nodup_append_missingKeys h literals

/-- The entries of an object and the keys that a record misses among them have distinct names. -/
theorem Schema.distinct_append_missingIn {α : Type} (keys : KeyCheck) (values : Schema)
    {entries : List (String × Value)} (h : Entries.Distinct entries) (entry : String × Value → α)
    (missing : String → α) :
    Entries.Distinct ((entries.map fun e => (e.1, entry e)) ++
      (missingIn keys values entries).map fun key => (key, missing key)) := by
  have hnodup : (Entries.keys entries ++ missingIn keys values entries).Nodup :=
    keys.nodup_append_missing _ h
  simpa [Entries.Distinct, Entries.keys, Function.comp_def] using hnodup

/-! ## Messages -/

/-- The messages are the same but for the order, which is the same too if `inOrder` holds. -/
structure Reordered (inOrder : Prop) (messages others : List Message) : Prop where
  perm : messages.Perm others
  eq : inOrder → messages = others

namespace Reordered

variable {inOrder : Prop}

/-- The same messages are in the same order. -/
theorem of_eq {messages others : List Message} (h : messages = others) :
    Reordered inOrder messages others :=
  ⟨.of_eq h, fun _ => h⟩

/-- One after the other. -/
theorem append {first first' second second' : List Message} (h : Reordered inOrder first first')
    (h' : Reordered inOrder second second') :
    Reordered inOrder (first ++ second) (first' ++ second') :=
  ⟨h.perm.append h'.perm, fun hin => by rw [h.eq hin, h'.eq hin]⟩

/-- One after the other in lists. -/
theorem flatMap {α β : Type} {l : List α} {u : List β} {f : α → List Message}
    {g : β → List Message} (h : List.Forall₂ (fun a b => Reordered inOrder (f a) (g b)) l u) :
    Reordered inOrder (l.flatMap f) (u.flatMap g) := by
  induction h with
  | nil => exact of_eq rfl
  | cons hab _ ih =>
    rw [List.flatMap_cons, List.flatMap_cons]
    exact hab.append ih

/-- An order that is kept under one condition is kept under a stronger one. -/
theorem mono {stronger : Prop} {messages others : List Message}
    (h : Reordered inOrder messages others) (himp : stronger → inOrder) :
    Reordered stronger messages others :=
  ⟨h.perm, fun hstronger => h.eq (himp hstronger)⟩

end Reordered

/-! ## Two walks at once -/

namespace Schema

/-- Whether the schema is a record. -/
def isRecord : Schema → Bool
  | .record .. => true
  | _ => false

/-- No node of the schema is a record. -/
def RecordFree (schema : Schema) : Prop := schema.Every fun node => node.isRecord = false

/-- The walks of the two values have alike verdicts. Their messages differ at most in their order,
and in nothing if the schema has no records. -/
structure Agrees (schema : Schema) (a b : Value) : Prop where
  verdict : (schema.verdict a).Alike (schema.verdict b)
  messages : ∀ path,
    Reordered schema.RecordFree (schema.messages a path) (schema.messages b path)

/-- What the walks under a child tell keeps its order if the schema has no records. -/
theorem Agrees.messages_of_mem {schema child : Schema} {a b : Value} (h : child.Agrees a b)
    (hchild : child ∈ schema.children) (path : String) :
    Reordered schema.RecordFree (child.messages a path) (child.messages b path) :=
  (h.messages path).mono fun hfree => hfree.child hchild

/-- A node that is settled for a value is settled alike for an alike value. -/
theorem Settled.exists_alike {schema : Schema} {a b : Value} {v : Verdict}
    (h : Settled schema a v) (hab : a.Alike b)
    (hparsers : schema.EveryParser Parser.RespectsEqual) :
    ∃ w, Settled schema b w ∧ v.Alike w := by
  have hrel := hab.rel
  cases h with
  | null =>
    cases hrel
    exact ⟨_, .null, Verdict.ofModifier_alike _ hab⟩
  | undefined =>
    cases hrel
    exact ⟨_, .undefined, Verdict.ofModifier_alike _ hab⟩
  | @leaf check m _ present =>
    refine ⟨_, .leaf (hrel.present present), Verdict.ofCheck_alike ?_⟩
    exact LeafCheck.check_alike hab fun p hp => hparsers.here p (hp ▸ rfl)
  | array present shape =>
    exact ⟨_, .array (hrel.present present) (hrel.ne_array shape), Verdict.wrongShape_alike hab _⟩
  | tuple present shape =>
    exact ⟨_, .tuple (hrel.present present) (hrel.ne_array shape), Verdict.wrongShape_alike hab _⟩
  | length shape =>
    cases hrel with
    | array hitems =>
      have hlength := hitems.length_eq
      refine ⟨_, .length (hlength ▸ shape), ?_⟩
      rw [hlength]
      exact Verdict.fail_alike _
  | object present shape =>
    exact ⟨_, .object (hrel.present present) (hrel.ne_object shape), Verdict.wrongShape_alike hab _⟩
  | record present shape =>
    exact ⟨_, .record (hrel.present present) (hrel.ne_object shape), Verdict.wrongShape_alike hab _⟩

/-- The parts have the same schema and alike values. -/
def AlikeParts (p q : Schema × Value) : Prop := p.1 = q.1 ∧ p.2.Alike q.2

/-- Lists that are alike are walked as alike parts. -/
theorem exists_alike_listParts {schema : Schema} {a b : Value} {parts : List (Schema × Value)}
    (h : schema.listParts? a = some parts) (hab : a.Alike b) :
    ∃ others, schema.listParts? b = some others ∧ List.Forall₂ AlikeParts parts others := by
  unfold listParts? at h
  split at h
  · obtain rfl := Option.some.inj h
    cases hab.rel with
    | array hitems =>
      exact ⟨_, rfl, List.rel_map (fun _ _ hitem => ⟨rfl, hitem⟩) hitems⟩
  · split at h
    · rename_i hlength
      obtain rfl := Option.some.inj h
      cases hab.rel with
      | array hitems =>
        exact ⟨_, if_pos (hitems.length_eq ▸ hlength), forall₂_zip_same hitems _⟩
    · cases h
  · cases h

/-- On a union whose members agree, the walks agree. -/
theorem agrees_union {first second : Schema} {third : Option Schema} (m : Modifiers) {a b : Value}
    (present : a.Present) (hab : a.Alike b)
    (ih : ∀ s ∈ unionMembers first second third, s.Agrees a b) :
    (union first second third m).Agrees a b := by
  have present' : b.Present := hab.rel.present present
  have hverdict : ((union first second third m).verdict a).Alike
      ((union first second third m).verdict b) := by
    rw [verdict_union _ _ _ m present, verdict_union _ _ _ m present']
    exact Verdict.ofMembers_alike (forall₂_map_same fun s hs => (ih s hs).verdict)
  refine ⟨hverdict, fun path => ?_⟩
  -- All members are walked, also behind the one that is chosen, and all leave their messages.
  rw [messages_union _ _ _ m present, messages_union _ _ _ m present']
  refine .append (.flatMap (List.forall₂_same.2 fun x hx => ?_))
    (.of_eq (hverdict.ownMessages_eq path))
  have hmember : x.1 ∈ (union first second third m).children := List.fst_mem_of_mem_zipIdx hx
  exact (ih x.1 hmember).messages_of_mem hmember _

/-- On lists whose parts agree, the walks agree. -/
theorem agrees_list {schema : Schema} {a b : Value} {parts others : List (Schema × Value)}
    (ha : schema.listParts? a = some parts) (hb : schema.listParts? b = some others)
    (ih : List.Forall₂ (fun p q => p.1 = q.1 ∧ p.1.Agrees p.2 q.2) parts others) :
    schema.Agrees a b := by
  constructor
  · rw [verdict_list ha, verdict_list hb]
    refine Verdict.ofItems_alike (List.rel_map (fun p q h => ?_) ih)
    obtain ⟨hschema, hagrees⟩ := h
    rw [← hschema]
    exact hagrees.verdict
  · intro path
    rw [messages_list ha, messages_list hb]
    refine .flatMap (forall₂_imp_of_mem (forall₂_zipIdx ih 0) fun x hx y _ h => ?_)
    obtain ⟨⟨hschema, hagrees⟩, hposition⟩ := h
    rw [← hschema, ← hposition]
    have hpart : x.1 ∈ parts := List.fst_mem_of_mem_zipIdx hx
    exact hagrees.messages_of_mem (mem_of_listParts ha hpart).1 _

/-- On objects whose declared properties agree, the walks agree. -/
theorem agrees_object {properties : List (String × Schema)} (m : Modifiers)
    {entries others : List (String × Value)} (hnames : (Entries.keys properties).Nodup)
    (ih : ∀ p ∈ properties,
      p.2.Agrees ((Value.object entries).get p.1) ((Value.object others).get p.1)) :
    (object properties m).Agrees (.object entries) (.object others) := by
  constructor
  · rw [verdict_object, verdict_object]
    refine Verdict.ofEntries_alike (.intro (forall₂_map_same fun p hp => ?_) (.refl _))
      (Entries.distinct_map hnames _)
    exact .intro p.1 (ih p hp).verdict
  · intro path
    rw [messages_object, messages_object]
    refine .flatMap (List.forall₂_same.2 fun p hp => ?_)
    exact (ih p hp).messages_of_mem (mem_children_object hp m) _

/-- On records whose values agree under the same keys, the walks agree. -/
theorem agrees_record (keys : KeyCheck) {values : Schema} (m : Modifiers)
    {entries others : List (String × Value)} (hothers : Entries.Distinct others)
    (ih : Entries.Matched values.Agrees entries others) :
    (record keys values m).Agrees (.object entries) (.object others) := by
  have hmissing : missingIn keys values entries = missingIn keys values others :=
    keys.missing_congr _ ih.keys_perm
  constructor
  · have hfail : List.Forall₂ (Entries.SameKey Verdict.Alike)
        ((missingIn keys values others).map fun key => (key, .fail missingProperty))
        ((missingIn keys values others).map fun key => (key, .fail missingProperty)) :=
      forall₂_map_same fun key _ => .intro key (Verdict.fail_alike missingProperty)
    rw [verdict_record, verdict_record, hmissing]
    refine Verdict.ofEntries_alike ((ih.map fun _ _ ⟨key, h⟩ => ?_).append (.intro hfail (.refl _)))
      ?_
    · exact .intro key (Verdict.ofKeyed_alike (keys.isPlain_verdict key) h.verdict)
    · exact distinct_append_missingIn keys values hothers _ _
  · -- The entries are told in the order they are in, which a schema without records never sees.
    refine fun path => ⟨?_, fun hfree => Bool.noConfusion hfree.here⟩
    rw [messages_record, messages_record, hmissing]
    refine (ih.flatMap_perm fun _ _ ⟨key, h⟩ => ?_).append_right _
    exact (h.messages _).perm.append_left _

/-- The walks of alike values agree under every schema whose parsers respect equality. -/
theorem agrees_of_alike {schema : Schema} {a b : Value} (hab : a.Alike b)
    (hparsers : schema.EveryParser Parser.RespectsEqual) (hnames : schema.NamesDistinct) :
    schema.Agrees a b := by
  induction schema, a using walk_induct generalizing b with
  | settled h =>
    -- No part is walked, and a plain verdict leaves the same messages as one that is alike.
    obtain ⟨w, hw, halike⟩ := h.exists_alike hab hparsers
    rw [← verdict_settled h, ← verdict_settled hw] at halike
    refine ⟨halike, fun path => ?_⟩
    rw [messages_settled h, messages_settled hw, ← verdict_settled h, ← verdict_settled hw]
    exact .of_eq (halike.ownMessages_eq path)
  | @union first second third m a present ih =>
    refine agrees_union m present hab fun s hs => ?_
    exact ih s hs hab (hparsers.child hs) (hnames.child hs)
  | @list schema a parts h ih =>
    obtain ⟨others, hothers, halike⟩ := exists_alike_listParts h hab
    refine agrees_list h hothers (forall₂_imp_of_mem halike fun p hp q _ hpq => ?_)
    have hchild := (mem_of_listParts h hp).1
    exact ⟨hpq.1, ih p hp hpq.2 (hparsers.child hchild) (hnames.child hchild)⟩
  | @object properties m entries ih =>
    -- The order is that of the declaration for both, so that only what is under each name counts.
    cases hab.rel with
    | object hentries =>
      refine agrees_object m hnames.here fun p hp => ?_
      have hchild := mem_children_object hp m
      exact ih p hp (hab.get p.1) (hparsers.child hchild) (hnames.child hchild)
  | @record keys values m entries ih =>
    cases hab.rel with
    | @object _ others hentries =>
      have hchild := mem_children_record keys values m
      refine agrees_record keys m (Value.valid_object.1 hab.valid').1 ?_
      exact hentries.imp fun e he b hb =>
        ih e he hb (hparsers.child hchild) (hnames.child hchild)

/-- Every schema that is built with the builtin parsers has only parsers that respect equality. -/
theorem respectsEqual_build {document : Document} {schema : Schema}
    (h : document.build .builtins = .ok schema) : schema.EveryParser Parser.RespectsEqual :=
  Document.everyParser_build h fun _ _ _ hp => Parser.respectsEqual_of_builtins hp

/-- Equal values, whatever the order of their entries, are both accepted, with equal results, or
both rejected. The trees are the same but for the order of entries, and the messages but for their
order. Under a schema without records the messages are in the same order too. -/
theorem evaluate_alike (schema : Schema) (a b : Value)
    (hparsers : schema.EveryParser Parser.RespectsEqual) (hnames : schema.NamesDistinct)
    (ha : a.Valid) (hb : b.Valid) (hequal : a.equal b = true) :
    (schema.evaluate a).outcome.Alike (schema.evaluate b).outcome ∧
      (schema.evaluate a).validation.Alike (schema.evaluate b).validation ∧
      (schema.evaluate a).messages.toList.Perm (schema.evaluate b).messages.toList ∧
      (schema.RecordFree → (schema.evaluate a).messages = (schema.evaluate b).messages) := by
  obtain ⟨⟨houtcome, htree⟩, hmessages⟩ := agrees_of_alike ⟨ha, hb, hequal⟩ hparsers hnames
  obtain ⟨hperm, horder⟩ := hmessages rootLabel
  rw [evaluate_eq, evaluate_eq]
  exact ⟨houtcome, htree, hperm, fun hfree => congrArg List.toArray (horder hfree)⟩

/-- Whole numbers under names. -/
def counts : Schema := recordOf (.primitive .string) (parser (Parser.integer.withLabel "integer"))

/-- A number under `n`, and two values that are none under `a` and `b`. -/
def someCounts (n : Double) : Value := .object [("n", .number n), ("a", .string "x"), ("b", .null)]

/-- The same in the opposite order. -/
def someCountsReversed (n : Double) : Value :=
  .object [("b", .null), ("a", .string "x"), ("n", .number n)]

/-- The values that are no numbers are told in the order in which they are come across. A zero may
have either sign. -/
theorem evaluate_alike_someCounts :
    counts.EveryParser Parser.RespectsEqual ∧ counts.NamesDistinct ∧
      (someCounts .zero).Valid ∧ (someCountsReversed Double.zero.neg).Valid ∧
      (someCounts .zero).equal (someCountsReversed Double.zero.neg) = true ∧
      (counts.evaluate (someCounts .zero)).messages =
        #[⟨"root.a", "\"x\" is not an integer."⟩, ⟨"root.b", "null is not allowed."⟩] ∧
      (counts.evaluate (someCounts .zero)).messages.toList.Perm
        (counts.evaluate (someCountsReversed Double.zero.neg)).messages.toList ∧
      (counts.evaluate (someCounts .zero)).validation.Alike
        (counts.evaluate (someCountsReversed Double.zero.neg)).validation := by
  have hparsers : counts.EveryParser Parser.RespectsEqual :=
    @respectsEqual_build (.record (.primitive .string .none) (.parser "integer" .none) .none) _ rfl
  have hnames : counts.NamesDistinct := by decide
  have hvalid : (someCounts .zero).Valid :=
    ⟨(by decide : ["n", "a", "b"].Nodup), trivial, trivial, trivial, trivial⟩
  have hvalid' : (someCountsReversed Double.zero.neg).Valid :=
    ⟨(by decide : ["b", "a", "n"].Nodup), trivial, trivial, trivial, trivial⟩
  have hequal : (someCounts .zero).equal (someCountsReversed Double.zero.neg) = true := by decide
  obtain ⟨-, htree, hperm, -⟩ := evaluate_alike counts _ _ hparsers hnames hvalid hvalid' hequal
  exact ⟨hparsers, hnames, hvalid, hvalid', hequal, rfl, hperm, htree⟩

end Schema

end Conform

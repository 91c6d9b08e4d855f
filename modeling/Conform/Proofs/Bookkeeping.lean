import Conform.Proofs.KeyOrder

/-!
# What a record keeps account of

A record goes through the entries of its input and then through the keys that it asks for, and looks
each of these up among the keys that it has in its tree by then. That finds the keys of the input
and the ones that were found missing before, so a key that is asked for twice is missing once.
`walk_record_accounts` says what comes of it: the tree has the keys of the input and behind them
those that are missing, and the log has what the entries leave and behind it one message for each
missing key.

The keys that are missing are told without a walk by `KeyCheck.lacking`. That the walk finds them is
`missingKeys_eq`, by induction on the keys that are asked for, with those found so far among the
present ones.
-/

namespace Conform

/-- The keys that a record asks for: the texts of a closed set, unless values may be absent. -/
def KeyCheck.required (keys : KeyCheck) (optional : Bool) : List String :=
  match keys with
  | .primitive _ => []
  | .options literals => if optional then [] else literals.map Literal.toText

/-- The keys that are asked for and not present, each once where it is first asked for. -/
def KeyCheck.lacking (keys : KeyCheck) (optional : Bool) (present : List String) : List String :=
  ((keys.required optional).filter fun key => key ∉ present).eraseDups

/-- The check of keys as a schema of its own. -/
def KeyCheck.toSchema (keys : KeyCheck) : Schema := .leaf keys.toLeaf .none

/-- The texts that are found missing one after another are those that are not present, each once. -/
theorem missingKeys_eq (present : List String) (literals : List Literal) :
    missingKeys present literals =
      ((literals.map Literal.toText).filter fun key => key ∉ present).eraseDups := by
  induction literals generalizing present with
  | nil => rfl
  | cons l rest ih =>
    rw [missingKeys, List.map_cons]
    by_cases h : l.toText ∈ present
    · rw [if_pos h, ih, List.filter_cons_of_neg (by simpa using h)]
    · -- The text counts as present from now on, so that it is not among those that follow.
      have hrest : ((rest.map Literal.toText).filter fun key => key ∉ l.toText :: present) =
          ((rest.map Literal.toText).filter fun key => key ∉ present).filter
            fun key => !key == l.toText := by
        rw [List.filter_filter]
        refine List.filter_congr fun key _ => ?_
        by_cases hkey : key = l.toText <;> simp [hkey]
      rw [if_neg h, ih, List.filter_cons_of_pos (by simpa using h), List.eraseDups_cons, hrest]

/-- The keys that a record finds missing are those that it lacks. -/
theorem KeyCheck.missing_eq (keys : KeyCheck) (present : List String) (optional : Bool) :
    keys.missing present optional = keys.lacking optional present := by
  cases keys with
  | primitive p => rfl
  | options literals =>
    cases optional with
    | true => rfl
    | false => exact missingKeys_eq present literals

/-- A verdict leaves at most one message at its own place. -/
theorem Verdict.length_ownMessages_le (v : Verdict) (path : String) :
    (v.ownMessages path).length ≤ 1 := by
  unfold ownMessages
  split
  · exact Nat.le_refl 1
  · exact Nat.zero_le 1

/-- The messages on a key are those of the verdict on it. -/
theorem KeyCheck.messages_toSchema (keys : KeyCheck) (key path : String) :
    keys.toSchema.messages (.string key) path = (keys.verdict key).ownMessages path := by
  have present : (Value.string key).Present := ⟨nofun, nofun⟩
  exact Schema.messages_settled (.leaf present) path

namespace Schema

/-- The messages on an entry of a record: those on its key, and then those on its value. Both are at
the key behind a dot. -/
def entryMessages (keys : KeyCheck) (values : Schema) (path : String) (e : String × Value) :
    List Message :=
  keys.toSchema.messages (.string e.1) (path ++ "." ++ e.1) ++
    values.messages e.2 (path ++ "." ++ e.1)

/-- The keys that a record lacks in an object. -/
def lackingIn (keys : KeyCheck) (values : Schema) (entries : List (String × Value)) :
    List String := keys.lacking values.modifiers.optional (Entries.keys entries)

/-- The keys that are missing are those that the record lacks. -/
theorem missingIn_eq (keys : KeyCheck) (values : Schema) (entries : List (String × Value)) :
    missingIn keys values entries = lackingIn keys values entries :=
  keys.missing_eq _ _

/-- A record with open keys or with values that may be absent lacks nothing. -/
theorem lackingIn_eq_nil {keys : KeyCheck} {values : Schema}
    (h : (∃ p, keys = .primitive p) ∨ values.modifiers.optional = true)
    (entries : List (String × Value)) : lackingIn keys values entries = [] := by
  unfold lackingIn KeyCheck.lacking KeyCheck.required
  cases keys with
  | primitive p => rfl
  | options literals =>
    obtain ⟨p, hp⟩ | hoptional := h
    · cases hp
    · rw [hoptional]
      rfl

/-- The tree of a record has an entry for each entry of the input, under its key, and then the error
of each key that it lacks. -/
theorem validation_record (keys : KeyCheck) (values : Schema) (m : Modifiers)
    (entries : List (String × Value)) :
    ((record keys values m).verdict (.object entries)).validation =
      .map ((entries.map fun e =>
          (e.1, (Verdict.ofKeyed (keys.verdict e.1) (values.verdict e.2)).validation)) ++
        (lackingIn keys values entries).map fun key => (key, .leaf missingProperty)) := by
  rw [verdict_record, missingIn_eq, Verdict.ofEntries, List.map_append, List.map_map, List.map_map]
  rfl

/-- A record accounts for each entry of an object once, in order, and behind them for each key that
it lacks. So it does in the tree, whose keys are distinct if those of the object are, and in the
log, where an entry has at most one message on its key and then those on its value. Where a key is
lacking the walk fails. With open keys, or values that may be absent, nothing is lacking. -/
theorem walk_record_accounts (keys : KeyCheck) (values : Schema) (m : Modifiers)
    (entries : List (String × Value)) (path : String) (log : Log) :
    ∃ tree : List (String × Validation),
      ((record keys values m).walk (.object entries) path log).1.validation = .map tree ∧
      Entries.keys tree = Entries.keys entries ++ lackingIn keys values entries ∧
      tree.drop entries.length =
        (lackingIn keys values entries).map (fun key => (key, .leaf "Property is missing.")) ∧
      ((record keys values m).walk (.object entries) path log).2.toList =
        log.toList ++ entries.flatMap (entryMessages keys values path) ++
          (lackingIn keys values entries).map
            (fun key => ⟨path ++ "." ++ key, "Property is missing."⟩) ∧
      (lackingIn keys values entries ≠ [] →
        ((record keys values m).walk (.object entries) path log).1.outcome = .invalid) ∧
      (∀ key, (keys.toSchema.messages (.string key) (path ++ "." ++ key)).length ≤ 1) ∧
      (Entries.Distinct entries → Entries.Distinct tree) ∧
      ((∃ p, keys = .primitive p) ∨ values.modifiers.optional = true →
        lackingIn keys values entries = []) := by
  have hkeys (tree : String × Value → Validation) :
      Entries.keys ((entries.map fun e => (e.1, tree e)) ++
        (lackingIn keys values entries).map fun key => (key, .leaf missingProperty)) =
      Entries.keys entries ++ lackingIn keys values entries := by
    simp [Entries.keys, Function.comp_def]
  rw [walk_eq]
  refine ⟨_, validation_record keys values m entries, hkeys _, ?_, ?_, ?_, ?_, ?_,
    fun h => lackingIn_eq_nil h entries⟩
  · exact List.drop_left' (List.length_map _)
  · have hentries : entryMessages keys values path = fun e =>
        (keys.verdict e.1).ownMessages (propertyPath path e.1) ++
          values.messages e.2 (propertyPath path e.1) := by
      funext e
      rw [entryMessages, KeyCheck.messages_toSchema, propertyPath]
    rw [messages_record, missingIn_eq, hentries, Array.toList_append, List.append_assoc]
    rfl
  · intro hlacking
    exact (verdict_record_invalid keys values m entries).2 (.inr (missingIn_eq .. ▸ hlacking))
  · intro key
    rw [KeyCheck.messages_toSchema]
    exact Verdict.length_ownMessages_le _ _
  · intro hdistinct
    rw [← missingIn_eq]
    exact distinct_append_missingIn keys values hdistinct _ _

/-- Keys, two of them with the same text and one listed twice. -/
def repeatedKeys : KeyCheck :=
  .options [.string "1", .number (.ofInt 1), .string "b", .string "a", .string "b"]

/-- An entry under a key that is not listed, and a text in the place of a number. -/
def strayEntries : List (String × Value) := [("z", .number .zero), ("a", .string "x")]

/-- Two keys are lacking of the four texts that are listed, and none if numbers may be absent. The
message on the key that is not listed comes first, and then those on the text and on the two keys
that are lacking, each at its key. -/
theorem walk_record_accounts_stray :
    Entries.Distinct strayEntries ∧
      lackingIn repeatedKeys (primitive .number) strayEntries = ["1", "b"] ∧
      (∃ tree : List (String × Validation),
        ((record repeatedKeys (primitive .number) .none).walk (.object strayEntries) "root"
          #[]).1.validation = .map tree ∧
        Entries.keys tree = ["z", "a", "1", "b"] ∧
        tree.drop 2 = [("1", .leaf "Property is missing."), ("b", .leaf "Property is missing.")] ∧
        Entries.Distinct tree) ∧
      ((record repeatedKeys (primitive .number) .none).walk (.object strayEntries) "root"
        #[]).2.toList =
          [⟨"root.z", "\"z\" is not a valid option (1, 1, b, a, b)."⟩,
            ⟨"root.a", "\"x\" is not a number."⟩, ⟨"root.1", "Property is missing."⟩,
            ⟨"root.b", "Property is missing."⟩] ∧
      ((record repeatedKeys (primitive .number) .none).walk (.object strayEntries) "root"
        #[]).1.outcome = .invalid ∧
      lackingIn repeatedKeys (primitive .number).optional strayEntries = [] := by
  have hdistinct : Entries.Distinct strayEntries := (by decide : ["z", "a"].Nodup)
  have hlacking : lackingIn repeatedKeys (primitive .number) strayEntries = ["1", "b"] := by
    decide +kernel
  have hentries : strayEntries.flatMap (entryMessages repeatedKeys (primitive .number) "root") =
      [⟨"root.z", "\"z\" is not a valid option (1, 1, b, a, b)."⟩,
        ⟨"root.a", "\"x\" is not a number."⟩] := by
    decide +kernel
  obtain ⟨tree, htree, hkeys, hdrop, hlog, hinvalid, -, hnodup, -⟩ :=
    walk_record_accounts repeatedKeys (primitive .number) .none strayEntries "root" #[]
  obtain ⟨-, -, -, -, -, -, -, -, hnone⟩ :=
    walk_record_accounts repeatedKeys (primitive .number).optional .none strayEntries "root" #[]
  have hoptional : (primitive .number).optional.modifiers.optional = true := rfl
  rw [hlacking] at hkeys hdrop hlog hinvalid
  rw [hentries] at hlog
  exact ⟨hdistinct, hlacking, ⟨tree, htree, hkeys, hdrop, hnodup hdistinct⟩, hlog,
    hinvalid (List.cons_ne_nil _ _), hnone (.inr hoptional)⟩

end Schema

end Conform

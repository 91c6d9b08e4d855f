import Conform.Parser
import Conform.Proofs.ByteOrder
import Mathlib.Data.List.Induction

/-!
# What a registry has come to hold

A registry changes by calls that register a parser under a name, and a parser that is registered may
be one that the registry itself was asked for. `Registry.Made` is the relation of a registry and the
calls that it has come about by, and `Registry.Made.holds_last_calls` says what it holds then: under
each name the parser of the last call under this name, with the label that the parser had, or else
with the name for a label. The names are those of the calls, in the order of their bytes, and a
further call changes nothing under other names.

What one call does to the look-up is said by `get?_register`. The invariant of all calls
(`Made.get?_eq_some`) follows from it by induction on the calls: the last call under a name is the
newest one if it is under this name, and else what it was before (`lastUnder_concat`).
-/

namespace Conform

namespace Registry

/-! ## Names -/

/-- Names that are distinct are listed in strictly ascending order. -/
theorem names_ascending {r : Registry} (h : Entries.Distinct r.parsers) :
    r.names.Pairwise (· < ·) := by
  have hle : r.names.Pairwise fun a b => decide (a ≤ b) = true :=
    List.pairwise_mergeSort (fun a b c => by simpa using String.le_trans)
      (fun a b => by simpa using String.le_total a b) _
  have hne : r.names.Pairwise (· ≠ ·) := (List.mergeSort_perm _ _).nodup_iff.2 h
  refine hle.imp₂ (fun a b hab hne => ?_) hne
  exact Std.lt_of_le_of_ne (of_decide_eq_true hab) hne

/-! ## Calls -/

/-- The last of the calls under the name registers the parser. -/
def LastUnder (calls : List (String × Parser)) (name : String) (p : Parser) : Prop :=
  ∃ before after, calls = before ++ (name, p) :: after ∧ name ∉ Entries.keys after

/-- With one more call, the last under a name is this one if it is under the name, and else the one
that it was before. -/
theorem lastUnder_concat {calls : List (String × Parser)} {name other : String} {p q : Parser} :
    LastUnder (calls ++ [(name, p)]) other q ↔
      if name = other then p = q else LastUnder calls other q := by
  constructor
  · rintro ⟨before, after, heq, hafter⟩
    -- The last call under the name is the newest one, or there is a rest that the newest one ends.
    rcases List.eq_nil_or_concat after with rfl | ⟨rest, newest, rfl⟩
    · obtain ⟨-, hlast⟩ := List.append_inj' heq rfl
      obtain ⟨rfl, rfl⟩ := Prod.mk.inj (List.singleton_inj.1 hlast)
      rw [if_pos rfl]
    · rw [List.concat_eq_append, ← List.cons_append, ← List.append_assoc] at heq
      obtain ⟨hcalls, hlast⟩ := List.append_inj' heq rfl
      obtain rfl := List.singleton_inj.1 hlast
      rw [List.concat_eq_append, Entries.keys, List.map_append, List.mem_append, not_or] at hafter
      have hname : name ≠ other := fun hname => hafter.2 (List.mem_singleton.2 hname.symm)
      rw [if_neg hname]
      exact ⟨before, rest, hcalls, hafter.1⟩
  · intro h
    by_cases hname : name = other
    · rw [if_pos hname] at h
      subst h hname
      exact ⟨calls, [], rfl, List.not_mem_nil⟩
    · rw [if_neg hname] at h
      obtain ⟨before, after, rfl, hafter⟩ := h
      refine ⟨before, after ++ [(name, p)], by simp, ?_⟩
      rw [Entries.keys, List.map_append, List.mem_append, not_or]
      exact ⟨hafter, fun hlast => hname (List.mem_singleton.1 hlast).symm⟩

/-- There is a last call under a name exactly if there is one. -/
theorem exists_lastUnder_iff {calls : List (String × Parser)} {name : String} :
    (∃ p, LastUnder calls name p) ↔ name ∈ Entries.keys calls := by
  constructor
  · rintro ⟨p, before, after, rfl, -⟩
    rw [Entries.keys, List.map_append, List.mem_append]
    exact .inr List.mem_cons_self
  · induction calls using List.reverseRecOn with
    | nil => exact fun h => absurd h List.not_mem_nil
    | append_singleton calls call ih =>
      intro h
      rw [Entries.keys, List.map_append, List.mem_append] at h
      by_cases hname : call.1 = name
      · exact ⟨call.2, lastUnder_concat.2 (by rw [if_pos hname])⟩
      · obtain ⟨p, hp⟩ := ih (h.resolve_right fun hlast => hname (List.mem_singleton.1 hlast).symm)
        exact ⟨p, lastUnder_concat.2 (by rwa [if_neg hname])⟩

/-- The registry has come about by the calls, from one that was empty or had the builtin parsers.
The parser of a call may be any, also one that the registry had by then under some name. -/
inductive Made : Registry → List (String × Parser) → Prop
  | empty : Made empty []
  | builtins : Made builtins
      [("integer", .integer), ("non_empty_string", .nonEmptyString),
        ("trimmed_string", .trimmedString), ("numeric_string", .numericString)]
  | register {r : Registry} {calls : List (String × Parser)} (h : Made r calls) (name : String)
    (p : Parser) : Made (r.register name p) (calls ++ [(name, p)])

/-- What holds of the empty registry, and of a registry after a call if it held before, holds of
every registry that has come about by calls. -/
theorem Made.induct {motive : ∀ r calls, Made r calls → Prop} (empty : motive .empty [] .empty)
    (register : ∀ {r calls} (h : Made r calls) (name : String) (p : Parser), motive r calls h →
      motive (r.register name p) (calls ++ [(name, p)]) (h.register name p))
    {r : Registry} {calls : List (String × Parser)} (h : Made r calls) : motive r calls h := by
  induction h with
  | empty => exact empty
  | builtins => exact register _ _ _ (register _ _ _ (register _ _ _ (register _ _ _ empty)))
  | register h name p ih => exact register h name p ih

/-- Under each name there is the parser of the last call under the name, as it is stored there. -/
theorem Made.get?_eq_some {r : Registry} {calls : List (String × Parser)} (h : Made r calls)
    (name : String) (q : Parser) :
    r.get? name = some q ↔ ∃ p, LastUnder calls name p ∧ p.underName name = q := by
  induction h using Made.induct with
  | empty =>
    constructor
    · exact nofun
    · rintro ⟨p, hp, -⟩
      exact absurd (exists_lastUnder_iff.1 ⟨p, hp⟩) List.not_mem_nil
  | register _ newest p ih =>
    rw [get?_register]
    simp only [lastUnder_concat]
    by_cases hname : newest = name
    · subst hname
      simp
    · simpa [hname] using ih

/-- No name has two parsers. -/
theorem Made.distinct {r : Registry} {calls : List (String × Parser)} (h : Made r calls) :
    Entries.Distinct r.parsers := by
  induction h using Made.induct with
  | empty => exact List.nodup_nil
  | register _ name p ih =>
    rw [register_eq]
    exact Entries.distinct_insert name _ ih

/-- The names are those of the calls. -/
theorem Made.mem_names {r : Registry} {calls : List (String × Parser)} (h : Made r calls)
    (name : String) : name ∈ r.names ↔ name ∈ Entries.keys calls := by
  rw [mem_names_iff, Option.isSome_iff_exists, ← exists_lastUnder_iff]
  simp only [h.get?_eq_some]
  constructor
  · rintro ⟨-, p, hp, -⟩
    exact ⟨p, hp⟩
  · rintro ⟨p, hp⟩
    exact ⟨_, p, hp, rfl⟩

/-- A registry that has come about by calls lists their names, each once and in the order of their
bytes. Under each name it has the parser of the last call under the name, which answers as the one
that was handed over and has its label, or the name for a label if it had none, and it has nothing
else. A further call changes nothing under other names, and puts a parser that the registry had
under the new name as it is. -/
theorem Made.holds_last_calls {r : Registry} {calls : List (String × Parser)} (h : Made r calls) :
    (r.names.map Text.bytes).Pairwise (· < ·) ∧
    (∀ name, name ∈ r.names ↔ name ∈ Entries.keys calls) ∧
    (∀ name q, r.get? name = some q ↔ ∃ p, LastUnder calls name p ∧
      q.parse = p.parse ∧ q.label = some (p.label.getD name)) ∧
    (∀ name, r.get? name = none ↔ name ∉ Entries.keys calls) ∧
    (∀ e ∈ r.parsers, r.get? e.1 = some e.2) ∧
    (∀ name p other, name ≠ other → (r.register name p).get? other = r.get? other ∧
      (other ∈ (r.register name p).names ↔ other ∈ r.names)) ∧
    (∀ name source q, r.get? source = some q → (r.register name q).get? name = some q) := by
  have hother (name : String) (p : Parser) (other : String) (hne : name ≠ other) :
      (r.register name p).get? other = r.get? other := by
    rw [get?_register, if_neg hne]
  refine ⟨?_, h.mem_names, fun name q => ?_, fun name => ?_, fun e he => ?_,
    fun name p other hne => ⟨hother name p other hne, ?_⟩, fun name source q hq => ?_⟩
  · rw [List.pairwise_map]
    exact (names_ascending h.distinct).imp Text.bytes_lt_iff.2
  · rw [h.get?_eq_some]
    refine exists_congr fun p => and_congr_right fun _ => ?_
    constructor
    · rintro rfl
      exact ⟨rfl, rfl⟩
    · rintro ⟨hparse, hlabel⟩
      obtain ⟨label, parse⟩ := q
      subst hparse hlabel
      rfl
  · rw [← h.mem_names, mem_names_iff, Option.not_isSome_iff_eq_none]
  · exact Entries.get?_of_mem h.distinct he
  · rw [mem_names_iff, mem_names_iff, hother name p other hne]
  · obtain ⟨p, -, rfl⟩ := (h.get?_eq_some source q).1 hq
    rw [get?_register, if_pos rfl, Parser.underName_of_label rfl]

/-- A parser is registered, registered again under a second name as the registry gives it, and then
replaced under the first one. -/
def exchanged : Registry :=
  builtins
    |>.register "echo" (.ofFunction .ok)
    |>.register "alias" ⟨some "echo", .ok⟩
    |>.register "echo" (.ofFunction fun _ => .error "closed")

/-- Under the second name there is the parser as it was, with the first name for a label, and under
the first one there is the new parser with the same label. -/
theorem holds_last_calls_exchanged :
    (builtins.register "echo" (.ofFunction .ok)).get? "echo" = some ⟨some "echo", .ok⟩ ∧
      ∃ calls, Made exchanged calls ∧ (exchanged.names.map Text.bytes).Pairwise (· < ·) ∧
        "alias" ∈ exchanged.names ∧ "echo" ∈ exchanged.names ∧
        exchanged.get? "alias" = some ⟨some "echo", .ok⟩ ∧
        exchanged.get? "echo" = some ⟨some "echo", fun _ => .error "closed"⟩ ∧
        exchanged.get? "closed" = none := by
  have hmade := ((Made.builtins.register "echo" (.ofFunction .ok)).register "alias"
    ⟨some "echo", .ok⟩).register "echo" (.ofFunction fun _ => .error "closed")
  obtain ⟨hascending, hnames, hlast, hnone, -, -, -⟩ := hmade.holds_last_calls
  refine ⟨rfl, _, hmade, hascending, (hnames "alias").2 (by simp), (hnames "echo").2 (by simp), ?_,
    ?_, (hnone "closed").2 (by simp)⟩
  · refine (hlast "alias" _).2 ⟨⟨some "echo", .ok⟩, ?_, rfl, rfl⟩
    rw [lastUnder_concat, if_neg (by decide), lastUnder_concat, if_pos rfl]
  · refine (hlast "echo" _).2 ⟨.ofFunction fun _ => .error "closed", ?_, rfl, rfl⟩
    rw [lastUnder_concat, if_pos rfl]

end Registry

end Conform

import Conform.Proofs.Context
import Conform.Proofs.Verdict

/-!
# Laws of unions

A union asks its members in order and answers as the first that does. `Schema.answer?` is the answer
of a schema to a value, and `answer?_union` says that a union's is the first among those of its
members. What holds of outcomes follows from that equation: an answer is there in any order of the
members, unions within unions answer as one union of all members, and a member put at the end
changes no answer.

Null and absence are settled by the modifiers of the union itself, so those of its members are never
looked at (`walk_withModifiers`). The log has all that the members leave one after another, and the
error of the union behind it if there is no answer (`log_union`). The laws are stated together in
`walk_union_laws`.
-/

namespace Conform

/-- Outcomes with the same result, or with none, are the same. -/
theorem Outcome.eq_of_value? {o o' : Outcome} (h : o.value? = o'.value?) : o = o' := by
  cases o <;> cases o' <;> simp_all [value?]

/-- An outcome is valid if it has a result. -/
theorem Outcome.isValid_eq_isSome (o : Outcome) : o.isValid = o.value?.isSome := by
  cases o <;> rfl

namespace Verdict

/-- The result of a union is the first among those of its members. -/
theorem value?_ofMembers (members : List Verdict) :
    (ofMembers members).outcome.value? = members.findSome? (·.outcome.value?) := by
  unfold ofMembers
  split
  · rename_i value hvalue
    rw [hvalue]
    rfl
  · rename_i hnone
    rw [hnone]
    rfl

/-- A union has an error of its own exactly if none of its members passes. -/
theorem ownMessages_ofMembers (members : List Verdict) (path : String) :
    (ofMembers members).ownMessages path =
      if members.any (·.outcome.isValid) then [] else [⟨path, noUnionMember⟩] := by
  have hany : members.any (·.outcome.isValid) =
      (members.findSome? (·.outcome.value?)).isSome := by
    rw [List.isSome_findSome?]
    simp only [Outcome.isValid_eq_isSome]
  unfold ofMembers
  rw [hany]
  split
  · rename_i value hvalue
    rw [hvalue]
    rfl
  · rename_i hnone
    rw [hnone]
    rfl

end Verdict

namespace Schema

/-- Null and absence are settled alike by schemas with the same modifiers. -/
theorem walk_congr_modifiers {s t : Schema} (h : s.modifiers = t.modifiers) {input : Value}
    (hinput : ¬ input.Present) (path : String) (log : Log) :
    s.walk input path log = t.walk input path log := by
  rcases Value.not_present_iff.1 hinput with rfl | rfl
  · rw [walk_settled .null, walk_settled .null, h]
  · rw [walk_settled .undefined, walk_settled .undefined, h]

/-! ## Answers -/

/-- The result that a schema has for a value, if it accepts. -/
def answer? (schema : Schema) (input : Value) : Option Value :=
  (schema.verdict input).outcome.value?

/-- The result of a walk is the answer of the schema. -/
theorem value?_walk (schema : Schema) (input : Value) (path : String) (log : Log) :
    (schema.walk input path log).1.outcome.value? = schema.answer? input := by
  rw [walk_eq]
  rfl

/-- Walks of schemas with the same answer have the same outcome. -/
theorem outcome_eq_of_answer? {s t : Schema} {input : Value} (h : s.answer? input = t.answer? input)
    (path : String) (log : Log) :
    (s.walk input path log).1.outcome = (t.walk input path log).1.outcome := by
  apply Outcome.eq_of_value?
  rw [value?_walk, value?_walk, h]

/-- Without modifiers there is no answer to null or absence. -/
theorem answer?_of_not_present {schema : Schema} {input : Value} (h : schema.modifiers = .none)
    (hinput : ¬ input.Present) : schema.answer? input = none := by
  unfold answer?
  rcases Value.not_present_iff.1 hinput with rfl | rfl
  · rw [verdict_settled .null, h]
    rfl
  · rw [verdict_settled .undefined, h]
    rfl

/-- A union answers as the first of its members that does. -/
theorem answer?_union (first second : Schema) (third : Option Schema) (m : Modifiers)
    {input : Value} (present : input.Present) :
    (union first second third m).answer? input =
      (unionMembers first second third).findSome? (·.answer? input) := by
  unfold answer?
  rw [verdict_union first second third m present, Verdict.value?_ofMembers, List.findSome?_map]
  rfl

/-- The answer of a union of two is that of the first, or else that of the second. -/
theorem answer?_union2 (a b : Schema) {input : Value} (present : input.Present) :
    (union2 a b).answer? input = (a.answer? input).or (b.answer? input) := by
  unfold union2
  rw [answer?_union _ _ _ _ present]
  cases ha : a.answer? input <;> cases hb : b.answer? input <;> simp [unionMembers, ha, hb]

/-- The answer of a union of three is that of the union of the first two, or else that of the
third. -/
theorem answer?_union3 (a b c : Schema) {input : Value} (present : input.Present) :
    (union3 a b c).answer? input = ((union2 a b).answer? input).or (c.answer? input) := by
  rw [answer?_union2 a b present]
  unfold union3
  rw [answer?_union _ _ _ _ present]
  cases ha : a.answer? input <;> cases hb : b.answer? input <;> cases hc : c.answer? input <;>
    simp [unionMembers, ha, hb, hc]

/-- Unions within unions answer as one union of all members. -/
theorem answer?_nested (a b c : Schema) (input : Value) :
    (union2 (union2 a b) c).answer? input = (union3 a b c).answer? input ∧
      (union2 a (union2 b c)).answer? input = (union3 a b c).answer? input := by
  by_cases present : input.Present
  · constructor
    · rw [answer?_union3 a b c present, answer?_union2 (union2 a b) c present]
    · calc (union2 a (union2 b c)).answer? input
          = (a.answer? input).or ((b.answer? input).or (c.answer? input)) := by
            rw [answer?_union2 a (union2 b c) present, answer?_union2 b c present]
        _ = ((a.answer? input).or (b.answer? input)).or (c.answer? input) :=
            (Option.or_assoc ..).symm
        _ = (union3 a b c).answer? input := by
            rw [answer?_union3 a b c present, answer?_union2 a b present]
  · -- None of the three has modifiers, so that none of them comes to its members.
    have hpair (s t : Schema) : (union2 s t).answer? input = none :=
      answer?_of_not_present rfl present
    have htriple : (union3 a b c).answer? input = none := answer?_of_not_present rfl present
    rw [hpair, hpair, htriple]
    exact ⟨rfl, rfl⟩

/-- What a union of two answers, the union of these two and a third answers. -/
theorem answer?_union3_of_union2 {a b : Schema} (c : Schema) {input r : Value}
    (h : (union2 a b).answer? input = some r) : (union3 a b c).answer? input = some r := by
  by_cases present : input.Present
  · rw [answer?_union3 a b c present, h]
    rfl
  · have hnone : (union2 a b).answer? input = none := answer?_of_not_present rfl present
    rw [hnone] at h
    cases h

/-- Whether a union accepts does not depend on the order of its members. -/
theorem isSome_answer?_of_perm {first second first' second' : Schema} {third third' : Option Schema}
    (h : (unionMembers first second third).Perm (unionMembers first' second' third'))
    (m : Modifiers) (input : Value) :
    ((union first second third m).answer? input).isSome =
      ((union first' second' third' m).answer? input).isSome := by
  by_cases present : input.Present
  · rw [answer?_union _ _ _ _ present, answer?_union _ _ _ _ present, List.isSome_findSome?,
      List.isSome_findSome?]
    exact h.any_eq
  · have hwalk : (union first second third m).walk input "" #[] =
        (union first' second' third' m).walk input "" #[] :=
      walk_congr_modifiers (by rfl) present "" #[]
    rw [← value?_walk _ input "" #[], ← value?_walk _ input "" #[], hwalk]

/-! ## Modifiers of members -/

/-- The modifiers of a schema have no say in the walk of what is neither null nor absent. -/
theorem walk_withModifiers (schema : Schema) (m : Modifiers) {input : Value}
    (present : input.Present) (path : String) (log : Log) :
    (schema.withModifiers m).walk input path log = schema.walk input path log := by
  cases schema <;> cases input <;> simp [withModifiers, walk, Value.Present] at present ⊢

/-- The modifiers of the members have no say in the walk of a union. -/
theorem walk_union_withModifiers (first second : Schema) (third : Option Schema)
    (m m₁ m₂ m₃ : Modifiers) (input : Value) (path : String) (log : Log) :
    (union (first.withModifiers m₁) (second.withModifiers m₂) (third.map (withModifiers m₃))
        m).walk input path log =
      (union first second third m).walk input path log := by
  by_cases present : input.Present
  · have hverdict (s : Schema) (m : Modifiers) :
        (s.withModifiers m).verdict input = s.verdict input := by
      unfold verdict
      rw [walk_withModifiers s m present]
    have hmessages (s : Schema) (m : Modifiers) :
        (s.withModifiers m).messages input = s.messages input := by
      funext path
      unfold messages
      rw [walk_withModifiers s m present]
    rw [walk_eq, walk_eq, messages_union _ _ _ _ present, messages_union _ _ _ _ present,
      verdict_union _ _ _ _ present, verdict_union _ _ _ _ present]
    cases third <;> simp [unionMembers, hverdict, hmessages]
  · -- The union settles null and absence under its own modifiers.
    exact walk_congr_modifiers (by rfl) present path log

/-! ## The log -/

/-- The walks of the members of a union, each at its own path. -/
def memberVisits (members : List Schema) (input : Value) (path : String) : List Visit :=
  members.zipIdx.map fun x => ⟨x.1, input, memberPath path x.2⟩

/-- Walks on one log have the verdicts of their schemas, and leave their messages one after
another. -/
theorem walkEach_eq_messages (visits : List Visit) (log : Log) :
    walkEach visits log =
      (visits.map fun v => v.schema.verdict v.input,
        log ++ (visits.flatMap fun v => v.schema.messages v.input v.path).toArray) := by
  have hmessages (v : Visit) :
      ((v.schema.walk v.input "" #[]).2.map (Message.under v.path)).toList =
        v.schema.messages v.input v.path := by
    rw [← toArray_messages]
  rw [walkEach_eq]
  simp only [hmessages]
  rfl

/-- A union leaves what its members leave on the same log, one after another, and its own error
behind that exactly if none of them passes. -/
theorem log_union (first second : Schema) (third : Option Schema) (m : Modifiers) {input : Value}
    (present : input.Present) (path : String) (log : Log) :
    ((union first second third m).walk input path log).2 =
      if (walkEach (memberVisits (unionMembers first second third) input path) log).1.any
          (·.outcome.isValid) then
        (walkEach (memberVisits (unionMembers first second third) input path) log).2
      else
        (walkEach (memberVisits (unionMembers first second third) input path) log).2.push
          ⟨path, noUnionMember⟩ := by
  have hverdicts : (memberVisits (unionMembers first second third) input path).map
      (fun v => v.schema.verdict v.input) =
        (unionMembers first second third).map (·.verdict input) := by
    unfold memberVisits
    rw [List.map_map]
    calc (unionMembers first second third).zipIdx.map (fun x => x.1.verdict input)
        = ((unionMembers first second third).zipIdx.map Prod.fst).map (·.verdict input) := by
          rw [List.map_map]
          rfl
      _ = (unionMembers first second third).map (·.verdict input) := by
          rw [List.zipIdx_map_fst]
  rw [walk_eq, walkEach_eq_messages, hverdicts, messages_union _ _ _ _ present,
    verdict_union _ _ _ _ present, Verdict.ownMessages_ofMembers]
  unfold memberVisits
  rw [List.flatMap_map]
  split <;> simp

/-! ## The laws -/

/-- The laws of unions. The modifiers of the members do not matter. Whether a union accepts does not
depend on the order of its members. Unions within unions have the outcome of one union of all
members. A member put behind two others changes no result of these. Of a value that is neither null
nor absent, a union leaves what its members leave, walked one after another at their own paths, and
its own error behind that exactly if none of them passes. -/
theorem walk_union_laws :
    (∀ (first second : Schema) (third : Option Schema) (m m₁ m₂ m₃ : Modifiers) (input : Value)
        (path : String) (log : Log),
      (union (first.withModifiers m₁) (second.withModifiers m₂) (third.map (withModifiers m₃))
          m).walk input path log =
        (union first second third m).walk input path log) ∧
    (∀ (first second first' second' : Schema) (third third' : Option Schema) (m : Modifiers)
        (input : Value) (path : String) (log : Log),
      (unionMembers first second third).Perm (unionMembers first' second' third') →
        ((union first second third m).walk input path log).1.outcome.isValid =
          ((union first' second' third' m).walk input path log).1.outcome.isValid) ∧
    (∀ (a b c : Schema) (input : Value) (path : String) (log : Log),
      ((union2 (union2 a b) c).walk input path log).1.outcome =
          ((union3 a b c).walk input path log).1.outcome ∧
        ((union2 a (union2 b c)).walk input path log).1.outcome =
          ((union3 a b c).walk input path log).1.outcome) ∧
    (∀ (a b c : Schema) (input r : Value) (path : String) (log : Log),
      ((union2 a b).walk input path log).1.outcome = .valid r →
        ((union3 a b c).walk input path log).1.outcome = .valid r) ∧
    ∀ (first second : Schema) (third : Option Schema) (m : Modifiers) (input : Value)
        (path : String) (log : Log), input.Present →
      ((union first second third m).walk input path log).2 =
        if (walkEach (memberVisits (unionMembers first second third) input path) log).1.any
            (·.outcome.isValid) then
          (walkEach (memberVisits (unionMembers first second third) input path) log).2
        else
          (walkEach (memberVisits (unionMembers first second third) input path) log).2.push
            ⟨path, noUnionMember⟩ := by
  refine ⟨walk_union_withModifiers, ?perm, ?nested, ?third, ?log⟩
  case perm =>
    intro first second first' second' third third' m input path log h
    rw [Outcome.isValid_eq_isSome, Outcome.isValid_eq_isSome, value?_walk, value?_walk]
    exact isSome_answer?_of_perm h m input
  case nested =>
    intro a b c input path log
    obtain ⟨hleft, hright⟩ := answer?_nested a b c input
    exact ⟨outcome_eq_of_answer? hleft path log, outcome_eq_of_answer? hright path log⟩
  case third =>
    intro a b c input r path log h
    have hpair : (union2 a b).answer? input = some r := by
      rw [← value?_walk (union2 a b) input path log, h]
      rfl
    apply Outcome.eq_of_value?
    rw [value?_walk]
    exact answer?_union3_of_union2 c hpair
  case log =>
    intro first second third m input path log present
    exact log_union first second third m present path log

/-- A text is taken by the second of two members in either order, also in front of a third. Two
members that take no text leave an error each, and their union the last one. -/
theorem walk_union_laws_of_text :
    (unionMembers (primitive .number) (primitive .string) none).Perm
        (unionMembers (primitive .string) (primitive .number) none) ∧
      ((union2 (primitive .number) (primitive .string)).walk (.string "s") "root"
          #[]).1.outcome.isValid =
        ((union2 (primitive .string) (primitive .number)).walk (.string "s") "root"
          #[]).1.outcome.isValid ∧
      ((union2 (primitive .number) (primitive .string)).walk (.string "s") "root" #[]).1.outcome =
        .valid (.string "s") ∧
      ((union3 (primitive .number) (primitive .string) (primitive .boolean)).walk (.string "s")
          "root" #[]).1.outcome = .valid (.string "s") ∧
      (Value.string "s").Present ∧
      ((union2 (primitive .number) (primitive .boolean)).walk (.string "s") "root" #[]).2 =
        #[⟨"root\x7bunion(0)\x7d", "\"s\" is not a number."⟩,
          ⟨"root\x7bunion(1)\x7d", "\"s\" is not a boolean."⟩, ⟨"root", noUnionMember⟩] := by
  obtain ⟨-, hperm, -, hthird, hlog⟩ := walk_union_laws
  have hswap : (unionMembers (primitive .number) (primitive .string) none).Perm
      (unionMembers (primitive .string) (primitive .number) none) := .swap _ _ _
  have hpair : ((union2 (primitive .number) (primitive .string)).walk (.string "s") "root"
      #[]).1.outcome = .valid (.string "s") := rfl
  have present : (Value.string "s").Present := ⟨nofun, nofun⟩
  refine ⟨hswap, hperm _ _ _ _ _ _ .none _ _ _ hswap, hpair, hthird _ _ _ _ _ _ _ hpair, present,
    ?_⟩
  exact (hlog _ _ _ _ _ _ _ present).trans rfl

end Schema

end Conform

import Mathlib.Data.List.Forall2

/-!
# Work that may fail

Loading, building and reporting are done in steps, each of which may fail, and the first fault ends
the work. So work of several steps succeeds exactly if each step does (`bind_eq_ok`, `mapM_eq_ok`),
and the fault of it, `errorOf`, is that of the first step that has one (`errorOf_bind`,
`errorOf_mapM`).
-/

namespace Conform

/-! ## Success -/

/-- Work that goes on after other work succeeds if both do. -/
theorem bind_eq_ok {ε α β : Type} {x : Except ε α} {f : α → Except ε β} {b : β} :
    (x >>= f) = .ok b ↔ ∃ a, x = .ok a ∧ f a = .ok b := by
  cases x <;> simp [bind, Except.bind]

/-- Work whose faults are put in other words succeeds if it does without. -/
theorem mapError_eq_ok {ε δ α : Type} {x : Except ε α} {f : ε → δ} {a : α} :
    x.mapError f = .ok a ↔ x = .ok a := by
  cases x with
  | error fault => exact ⟨nofun, nofun⟩
  | ok value => constructor <;> exact fun h => congrArg Except.ok (Except.ok.inj h)

/-- Work of which something is made succeeds if it does itself. -/
theorem map_eq_ok {ε α β : Type} {x : Except ε α} {f : α → β} {b : β} :
    x.map f = .ok b ↔ ∃ a, x = .ok a ∧ f a = b := by
  cases x <;> simp [Except.map]

/-- Work on each member of a list succeeds if it does on all, and comes to what they come to. -/
theorem mapM_eq_ok {ε α β : Type} {f : α → Except ε β} {l : List α} {r : List β} :
    l.mapM f = .ok r ↔ List.Forall₂ (fun a b => f a = .ok b) l r := by
  induction l generalizing r with
  | nil =>
    rw [List.mapM_nil, List.forall₂_nil_left_iff]
    exact ⟨fun h => (Except.ok.inj h).symm, fun h => congrArg Except.ok h.symm⟩
  | cons a rest ih =>
    rw [List.mapM_cons, List.forall₂_cons_left_iff, bind_eq_ok]
    constructor
    · rintro ⟨b, hb, h⟩
      obtain ⟨others, hothers, h⟩ := bind_eq_ok.1 h
      exact ⟨b, others, hb, ih.1 hothers, (Except.ok.inj h).symm⟩
    · rintro ⟨b, others, hb, hothers, rfl⟩
      exact ⟨b, hb, bind_eq_ok.2 ⟨others, ih.2 hothers, rfl⟩⟩

/-! ## The fault -/

/-- The error of work that failed. -/
def errorOf {ε α : Type} : Except ε α → Option ε
  | .ok _ => none
  | .error e => some e

/-- Work that goes on after other work fails as the other does, or else as it does itself. -/
theorem errorOf_bind {ε α β : Type} {x : Except ε α} {f : α → Except ε β} {e : Option ε}
    (h : ∀ a, x = .ok a → errorOf (f a) = e) : errorOf (x >>= f) = (errorOf x).or e := by
  cases x with
  | ok a => exact h a rfl
  | error e => rfl

/-- What is made of a success does not fail. -/
theorem errorOf_bind_pure {ε α β : Type} (x : Except ε α) (f : α → β) :
    errorOf (x >>= fun a => pure (f a)) = errorOf x := by
  cases x <;> rfl

/-- What is made of a success is made without another error. -/
theorem errorOf_map {ε α β : Type} (x : Except ε α) (f : α → β) :
    errorOf (x.map f) = errorOf x := by
  cases x <;> rfl

/-- Work has no error exactly if it succeeds. -/
theorem errorOf_eq_none {ε α : Type} {x : Except ε α} : errorOf x = none ↔ ∃ a, x = .ok a := by
  cases x <;> simp [errorOf]

/-- Work has the error that it fails with. -/
theorem errorOf_eq_some {ε α : Type} {x : Except ε α} {e : ε} :
    errorOf x = some e ↔ x = .error e := by
  cases x <;> simp [errorOf]

/-- Work that goes on after other work fails if the other does, or if it does itself. -/
theorem bind_eq_error {ε α β : Type} {x : Except ε α} {f : α → Except ε β} {e : ε} :
    (x >>= f) = .error e ↔ x = .error e ∨ ∃ a, x = .ok a ∧ f a = .error e := by
  cases x <;> simp [bind, Except.bind]

/-- Work whose faults are put in other words fails with a fault that it has without. -/
theorem mapError_eq_error {ε δ α : Type} {x : Except ε α} {f : ε → δ} {d : δ} :
    x.mapError f = .error d ↔ ∃ e, x = .error e ∧ f e = d := by
  cases x <;> simp [Except.mapError]

/-- Work of which something is made fails as it does itself. -/
theorem map_eq_error {ε α β : Type} {x : Except ε α} {f : α → β} {e : ε} :
    x.map f = .error e ↔ x = .error e := by
  cases x <;> simp [Except.map]

/-- A search finds what it finds in the first member, or else in the others. -/
theorem findSome?_cons_eq_or {α β : Type} (f : α → Option β) (a : α) (rest : List α) :
    (a :: rest).findSome? f = (f a).or (rest.findSome? f) := by
  rw [List.findSome?_cons]
  cases f a <;> rfl

/-- A search through several lists is the search of each. -/
theorem findSome?_flatMap_eq {α β γ : Type} (f : β → Option γ) (g : α → List β) (l : List α) :
    (l.flatMap g).findSome? f = l.findSome? fun a => (g a).findSome? f := by
  induction l with
  | nil => rfl
  | cons a rest ih =>
    rw [List.flatMap_cons, List.findSome?_append, ih, findSome?_cons_eq_or]

/-- Searches for the same in each member find the same. -/
theorem findSome?_congr_mem {α β : Type} {f g : α → Option β} {l : List α}
    (h : ∀ a ∈ l, f a = g a) : l.findSome? f = l.findSome? g := by
  induction l with
  | nil => rfl
  | cons a rest ih =>
    obtain ⟨ha, hrest⟩ := List.forall_mem_cons.1 h
    rw [findSome?_cons_eq_or, findSome?_cons_eq_or, ha, ih hrest]

/-- Work on each member of a list fails as it does on the first member on which it fails. -/
theorem errorOf_mapM {ε α β : Type} (f : α → Except ε β) (l : List α) :
    errorOf (l.mapM f) = l.findSome? fun a => errorOf (f a) := by
  induction l with
  | nil => rfl
  | cons a rest ih =>
    rw [List.mapM_cons, findSome?_cons_eq_or]
    exact errorOf_bind fun b _ => (errorOf_bind_pure (rest.mapM f) (b :: ·)).trans ih

/-- Work on each member of a list fails with the fault of one before which there is none. -/
theorem mapM_eq_error {ε α β : Type} {f : α → Except ε β} {l : List α} {e : ε} :
    l.mapM f = .error e ↔ ∃ before a after, l = before ++ a :: after ∧
      (∀ b ∈ before, ∀ other, f b ≠ .error other) ∧ f a = .error e := by
  rw [← errorOf_eq_some, errorOf_mapM, List.findSome?_eq_some_iff]
  constructor
  · rintro ⟨before, a, after, rfl, ha, hbefore⟩
    refine ⟨before, a, after, rfl, fun b hb other hother => ?_, errorOf_eq_some.1 ha⟩
    have hnone := hbefore b hb
    rw [hother] at hnone
    cases hnone
  · rintro ⟨before, a, after, rfl, hbefore, ha⟩
    refine ⟨before, a, after, rfl, errorOf_eq_some.2 ha, fun b hb => ?_⟩
    cases hfault : errorOf (f b) with
    | none => rfl
    | some other => exact absurd (errorOf_eq_some.1 hfault) (hbefore b hb other)

end Conform

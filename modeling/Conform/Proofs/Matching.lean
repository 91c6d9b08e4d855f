import Conform.Entries
import Mathlib.Data.List.Perm.Basic

/-!
# Lists related one by one

Lists whose members are related one by one, by `List.Forall₂`, and entries that are so under the
same names. The order of entries does not count where objects are equal, so `Entries.Matched` lets
the others be put in another order first.
-/

namespace Conform

/-! ## Lists -/

/-- Lists are related by another relation if what they are made of is, where it was related. -/
theorem forall₂_imp_of_mem {α β : Type} {R S : α → β → Prop} {l : List α} {u : List β}
    (h : List.Forall₂ R l u) (himp : ∀ a ∈ l, ∀ b ∈ u, R a b → S a b) : List.Forall₂ S l u := by
  obtain ⟨hlength, hzip⟩ := List.forall₂_iff_zip.1 h
  refine List.forall₂_iff_zip.2 ⟨hlength, fun hp => ?_⟩
  obtain ⟨ha, hb⟩ := List.of_mem_zip hp
  exact himp _ ha _ hb (hzip hp)

/-- Whatever is in a list that is made item by item of another is made of something there. -/
theorem exists_of_forall₂ {α β : Type} {R : α → β → Prop} {l : List α} {u : List β}
    (h : List.Forall₂ R l u) {b : β} (hb : b ∈ u) : ∃ a ∈ l, R a b := by
  induction h with
  | nil => cases hb
  | cons hab _ ih =>
    rcases List.mem_cons.1 hb with rfl | hb
    · exact ⟨_, List.mem_cons_self, hab⟩
    · obtain ⟨a, ha, hrel⟩ := ih hb
      exact ⟨a, List.mem_cons_of_mem _ ha, hrel⟩

/-- Lists that are made of the same list in related ways are related. -/
theorem forall₂_map_same {α β γ : Type} {R : α → β → Prop} {l : List γ} {f : γ → α} {g : γ → β}
    (h : ∀ c ∈ l, R (f c) (g c)) : List.Forall₂ R (l.map f) (l.map g) := by
  rw [List.forall₂_map_left_iff, List.forall₂_map_right_iff, List.forall₂_same]
  exact h

/-- The same is made of related lists if it is of related members. -/
theorem map_eq_of_forall₂ {α β γ : Type} {R : α → β → Prop} {l : List α} {u : List β}
    (h : List.Forall₂ R l u) {f : α → γ} {g : β → γ} (hfg : ∀ a ∈ l, ∀ b, R a b → f a = g b) :
    l.map f = u.map g := by
  have heq : List.Forall₂ Eq (l.map f) (u.map g) := by
    rw [List.forall₂_map_left_iff, List.forall₂_map_right_iff]
    exact forall₂_imp_of_mem h fun a ha b _ hab => hfg a ha b hab
  rwa [List.forall₂_eq_eq_eq] at heq

/-- Related lists are related after each has been paired with the same list. -/
theorem forall₂_zip_same {α β γ : Type} {R : α → β → Prop} {l : List α} {u : List β}
    (h : List.Forall₂ R l u) (s : List γ) :
    List.Forall₂ (fun p q => p.1 = q.1 ∧ R p.2 q.2) (s.zip l) (s.zip u) := by
  induction h generalizing s with
  | nil => cases s <;> exact .nil
  | cons hab _ ih =>
    cases s with
    | nil => exact .nil
    | cons c s => exact .cons ⟨rfl, hab⟩ (ih s)

/-- Related lists are related position by position. -/
theorem forall₂_zipIdx {α β : Type} {R : α → β → Prop} {l : List α} {u : List β}
    (h : List.Forall₂ R l u) (position : Nat) :
    List.Forall₂ (fun x y => R x.1 y.1 ∧ x.2 = y.2) (l.zipIdx position) (u.zipIdx position) := by
  induction h generalizing position with
  | nil => exact .nil
  | cons hab _ ih => exact .cons ⟨hab, rfl⟩ (ih (position + 1))

/-- Tests that agree on related members agree on related lists. -/
theorem forall₂_all_eq {α β : Type} {R : α → β → Prop} {l : List α} {u : List β}
    (h : List.Forall₂ R l u) {p : α → Bool} {q : β → Bool} (hpq : ∀ a b, R a b → p a = q b) :
    l.all p = u.all q := by
  induction h with
  | nil => rfl
  | cons hab _ ih => rw [List.all_cons, List.all_cons, hpq _ _ hab, ih]

/-- Related options are related in what they hold, or in what stands for nothing. -/
theorem rel_getD {α β : Type} {R : α → β → Prop} {x : Option α} {y : Option β}
    (h : Option.Rel R x y) {a : α} {b : β} (hab : R a b) : R (x.getD a) (y.getD b) := by
  cases h <;> assumption

/-! ## Entries -/

namespace Entries

variable {α β γ δ : Type} {R : α → β → Prop} {S : γ → δ → Prop}

/-- The entries have the same name, and `R` relates their values. -/
inductive SameKey (R : α → β → Prop) : String × α → String × β → Prop
  | intro (key : String) {a : α} {b : β} (h : R a b) : SameKey R (key, a) (key, b)

/-- Entries with the same names have the same list of names. -/
theorem keys_eq_of_forall₂ {entries : List (String × α)} {others : List (String × β)}
    (h : List.Forall₂ (SameKey R) entries others) : keys entries = keys others := by
  have hkeys : List.Forall₂ Eq (keys entries) (keys others) :=
    List.rel_map (fun _ _ hsame => by cases hsame; rfl) h
  rwa [List.forall₂_eq_eq_eq] at hkeys

/-- In some order, the others have the names of the entries and values that `R` relates to them. -/
inductive Matched (R : α → β → Prop) : List (String × α) → List (String × β) → Prop
  | intro {entries : List (String × α)} {arranged others : List (String × β)}
    (same : List.Forall₂ (SameKey R) entries arranged) (perm : arranged.Perm others) :
    Matched R entries others

/-- Related values that are made of related entries stay matched. -/
theorem Matched.map {entries : List (String × α)} {others : List (String × β)}
    (h : Matched R entries others) {f : String × α → String × γ} {g : String × β → String × δ}
    (hfg : ∀ e o, SameKey R e o → SameKey S (f e) (g o)) :
    Matched S (entries.map f) (others.map g) := by
  obtain ⟨same, perm⟩ := h
  exact .intro (List.rel_map (fun e o => hfg e o) same) (perm.map g)

/-- Matched entries with the same matched entries behind them are matched. -/
theorem Matched.append {entries entries' : List (String × α)} {others others' : List (String × β)}
    (h : Matched R entries others) (h' : Matched R entries' others') :
    Matched R (entries ++ entries') (others ++ others') := by
  obtain ⟨same, perm⟩ := h
  obtain ⟨same', perm'⟩ := h'
  exact .intro (List.rel_append same same') (perm.append perm')

/-- Matched entries are matched after the same have been dropped. -/
theorem Matched.filter {entries : List (String × α)} {others : List (String × β)}
    (h : Matched R entries others) {p : String × α → Bool} {q : String × β → Bool}
    (hpq : ∀ e o, SameKey R e o → (p e = true ↔ q o = true)) :
    Matched R (entries.filter p) (others.filter q) := by
  obtain ⟨same, perm⟩ := h
  exact .intro (List.rel_filter (fun e o => hpq e o) same) (perm.filter q)

/-- Matched entries are as many. -/
theorem Matched.length_eq {entries : List (String × α)} {others : List (String × β)}
    (h : Matched R entries others) : entries.length = others.length := by
  obtain ⟨same, perm⟩ := h
  rw [same.length_eq, perm.length_eq]

/-- Tests that agree on entries and their matches agree on matched entries. -/
theorem Matched.all_eq {entries : List (String × α)} {others : List (String × β)}
    (h : Matched R entries others) {p : String × α → Bool} {q : String × β → Bool}
    (hpq : ∀ e o, SameKey R e o → p e = q o) : entries.all p = others.all q := by
  obtain ⟨same, perm⟩ := h
  rw [forall₂_all_eq same hpq, perm.all_eq]

/-- Matched entries have the same names. -/
theorem Matched.keys_perm {entries : List (String × α)} {others : List (String × β)}
    (h : Matched R entries others) : (keys entries).Perm (keys others) := by
  obtain ⟨same, perm⟩ := h
  rw [keys_eq_of_forall₂ same]
  exact perm.map Prod.fst

/-- An entry has its match among the others. -/
theorem Matched.exists_of_mem {entries : List (String × α)} {others : List (String × β)}
    (h : Matched R entries others) {e : String × α} (he : e ∈ entries) :
    ∃ o ∈ others, SameKey R e o := by
  obtain ⟨same, perm⟩ := h
  obtain ⟨o, ho, hsame⟩ := exists_of_forall₂ same.flip he
  exact ⟨o, perm.subset ho, hsame⟩

/-- Entries are matched by another relation if their values are related by it where they were. -/
theorem Matched.imp {T : α → β → Prop} {entries : List (String × α)} {others : List (String × β)}
    (h : Matched R entries others) (himp : ∀ e ∈ entries, ∀ b, R e.2 b → T e.2 b) :
    Matched T entries others := by
  obtain ⟨same, perm⟩ := h
  refine .intro (forall₂_imp_of_mem same fun e he o _ hsame => ?_) perm
  obtain ⟨key, hrel⟩ := hsame
  exact .intro key (himp _ he _ hrel)

/-- Lists that are made of entries and of their matches are the same but for the order, if those of
single entries are. -/
theorem Matched.flatMap_perm {entries : List (String × α)} {others : List (String × β)}
    (h : Matched R entries others) {f : String × α → List γ} {g : String × β → List γ}
    (hfg : ∀ e o, SameKey R e o → (f e).Perm (g o)) :
    (entries.flatMap f).Perm (others.flatMap g) := by
  obtain ⟨same, perm⟩ := h
  suffices (entries.flatMap f).Perm (List.flatMap g _) from this.trans (perm.flatMap_right g)
  clear perm
  induction same with
  | nil => exact .nil
  | cons hsame _ ih =>
    rw [List.flatMap_cons, List.flatMap_cons]
    exact (hfg _ _ hsame).append ih

/-- Matched entries have related values under every name. -/
theorem Matched.get? {entries : List (String × α)} {others : List (String × β)}
    (h : Matched R entries others) (hothers : Distinct others) (key : String) :
    Option.Rel R (get? key entries) (get? key others) := by
  cases hvalue : Entries.get? key entries with
  | none =>
    have hnone : Entries.get? key others = none := by
      rw [← Option.not_isSome_iff_eq_none, get?_isSome, ← h.keys_perm.mem_iff, ← get?_isSome,
        hvalue]
      exact Bool.false_ne_true
    rw [hnone]
    exact .none
  | some value =>
    obtain ⟨o, ho, ⟨_, h⟩⟩ := h.exists_of_mem (mem_of_get? hvalue)
    rw [get?_of_mem hothers ho]
    exact .some h

/-- Entries are those that their names lead to. -/
theorem map_get?_keys [Inhabited α] {entries : List (String × α)} (h : Distinct entries) :
    (keys entries).map (fun key => (key, (Entries.get? key entries).getD default)) = entries := by
  rw [keys, List.map_map]
  refine (List.map_congr_left fun e he => ?_).trans (List.map_id entries)
  rw [Function.comp, get?_of_mem h he]
  rfl

/-- Entries that each have their match under their name are matched with as many others. -/
theorem matched_of_get? [Inhabited β] {entries : List (String × α)} {others : List (String × β)}
    (hentries : Distinct entries) (hothers : Distinct others)
    (hlength : entries.length = others.length)
    (h : ∀ e ∈ entries, ∃ value, Entries.get? e.1 others = some value ∧ R e.2 value) :
    Matched R entries others := by
  have hsubset : keys entries ⊆ keys others := by
    intro key hkey
    obtain ⟨e, he, rfl⟩ := List.mem_map.1 hkey
    obtain ⟨value, hvalue, -⟩ := h e he
    rw [← get?_isSome, hvalue]
    rfl
  have hperm : (keys entries).Perm (keys others) :=
    (List.subperm_of_subset hentries hsubset).perm_of_length_le (by simp [keys, hlength])
  -- The others in the order of the entries are what the names of the entries lead to.
  have hsame : List.Forall₂ (SameKey R) entries
      ((keys entries).map fun key => (key, (Entries.get? key others).getD default)) := by
    rw [keys, List.map_map, List.forall₂_map_right_iff, List.forall₂_same]
    intro e he
    obtain ⟨value, hvalue, hrel⟩ := h e he
    rw [Function.comp, hvalue]
    exact .intro e.1 hrel
  exact .intro hsame ((hperm.map _).trans (.of_eq (map_get?_keys hothers)))

end Entries

end Conform

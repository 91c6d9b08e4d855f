/-!
# Ordered entries

A map from names to values that remembers its order is a list of pairs, each name once. A name
written again keeps its first position and takes the new value. `get?_insert` and `keys_insert`
say what an insertion does to the two views of a map, and `distinct_insert` that it keeps names
from repeating.
-/

namespace Conform.Entries

variable {α β : Type}

/-- The names, in order. -/
def keys (entries : List (String × α)) : List String := entries.map Prod.fst

/-- The values, in the order of their names. -/
def values (entries : List (String × α)) : List α := entries.map Prod.snd

/-- The value under a name. -/
def get? (key : String) : List (String × α) → Option α
  | [] => none
  | (k, v) :: rest => if k = key then some v else get? key rest

/-- Whether a name has a value. -/
def contains (key : String) (entries : List (String × α)) : Bool := (get? key entries).isSome

/-- Puts a value under a name: in the name's place if it has one, else at the end. -/
def insert (key : String) (value : α) : List (String × α) → List (String × α)
  | [] => [(key, value)]
  | (k, v) :: rest =>
    if k = key then (key, value) :: rest else (k, v) :: insert key value rest

/-- The entries left by writing the pairs one after another. -/
def ofList (pairs : List (String × α)) : List (String × α) :=
  pairs.foldl (fun entries pair => insert pair.1 pair.2 entries) []

/-- No name occurs twice. -/
def Distinct (entries : List (String × α)) : Prop := (keys entries).Nodup

@[simp] theorem keys_nil : keys ([] : List (String × α)) = [] := rfl

@[simp] theorem keys_cons (p : String × α) (l : List (String × α)) :
    keys (p :: l) = p.1 :: keys l := rfl

/-- A value of an entry is smaller than the entries. -/
theorem sizeOf_lt_of_mem_values [SizeOf α] {entries : List (String × α)} {value : α}
    (h : value ∈ values entries) : sizeOf value < sizeOf entries := by
  obtain ⟨⟨key, value⟩, hp, rfl⟩ := List.mem_map.1 h
  have hlt := List.sizeOf_lt_of_mem hp
  rw [Prod.mk.sizeOf_spec] at hlt
  show sizeOf value < _
  omega

theorem get?_cons (key : String) (p : String × α) (l : List (String × α)) :
    get? key (p :: l) = if p.1 = key then some p.2 else get? key l := rfl

/-- After an insertion the name has the new value and every other name its old one. -/
theorem get?_insert (key other : String) (value : α) (l : List (String × α)) :
    get? other (insert key value l) = if key = other then some value else get? other l := by
  induction l with
  | nil => simp [insert, get?]
  | cons p l ih =>
    obtain ⟨k, v⟩ := p
    by_cases hk : k = key
    · subst hk
      simp only [insert, if_true, get?]
      split <;> rfl
    · simp only [insert, hk, if_false, get?, ih]
      by_cases ho : k = other
      · subst ho
        simp [Ne.symm hk]
      · simp [ho]

/-- A name has a value if and only if it is among the names. -/
theorem get?_isSome (key : String) (l : List (String × α)) :
    (get? key l).isSome = true ↔ key ∈ keys l := by
  induction l with
  | nil => simp [get?]
  | cons p l ih =>
    obtain ⟨k, v⟩ := p
    by_cases hk : k = key
    · simp [get?, hk]
    · simp [get?, hk, ih, Ne.symm hk]

/-- What is found under a name is one of the entries. -/
theorem mem_of_get? {key : String} {value : α} {l : List (String × α)}
    (h : get? key l = some value) : (key, value) ∈ l := by
  induction l with
  | nil => cases h
  | cons p l ih =>
    rw [get?] at h
    split at h
    · rename_i hk
      obtain rfl := Option.some.inj h
      exact hk ▸ List.mem_cons_self
    · exact List.mem_cons_of_mem _ (ih h)

/-- Where no name occurs twice, every entry is found under its name. -/
theorem get?_of_mem {key : String} {value : α} {l : List (String × α)} (hl : Distinct l)
    (h : (key, value) ∈ l) : get? key l = some value := by
  induction l with
  | nil => exact absurd h List.not_mem_nil
  | cons p l ih =>
    obtain ⟨hp, hrest⟩ := List.nodup_cons.1 hl
    rw [get?]
    rcases List.mem_cons.1 h with rfl | h
    · exact if_pos rfl
    · rw [if_neg fun hk : p.1 = key => hp (hk ▸ List.mem_map_of_mem h)]
      exact ih hrest h

/-- An insertion moves no name: a present name stays where it is and a new one goes to the end. -/
theorem keys_insert (key : String) (value : α) (l : List (String × α)) :
    keys (insert key value l) = if key ∈ keys l then keys l else keys l ++ [key] := by
  induction l with
  | nil => simp [insert]
  | cons p l ih =>
    obtain ⟨k, v⟩ := p
    by_cases hk : k = key
    · subst hk
      simp [insert]
    · simp only [insert, hk, if_false, keys_cons, ih, List.mem_cons, Ne.symm hk, false_or]
      split <;> simp

/-- After an insertion an entry is the new one or one of the old. -/
theorem mem_insert {key : String} {value : α} {l : List (String × α)} {e : String × α}
    (h : e ∈ insert key value l) : e = (key, value) ∨ e ∈ l := by
  induction l with
  | nil => exact .inl (List.mem_singleton.1 h)
  | cons p l ih =>
    rw [insert] at h
    split at h
    · exact (List.mem_cons.1 h).imp_right (List.mem_cons_of_mem _)
    · rcases List.mem_cons.1 h with rfl | h
      · exact .inr List.mem_cons_self
      · exact (ih h).imp_right (List.mem_cons_of_mem _)

/-- Insertion keeps names distinct. -/
theorem distinct_insert (key : String) (value : α) {l : List (String × α)} (h : Distinct l) :
    Distinct (insert key value l) := by
  unfold Distinct at *
  rw [keys_insert]
  split
  · exact h
  · rename_i hn
    rw [List.nodup_append]
    refine ⟨h, by simp, ?_⟩
    intro a ha b hb
    rw [List.mem_singleton] at hb
    subst hb
    exact fun e => hn (e ▸ ha)

/-- Entries made one for each member of a list have distinct names if their names are. -/
theorem distinct_map {l : List β} {name : β → String} (h : (l.map name).Nodup) (f : β → α) :
    Distinct (l.map fun b => (name b, f b)) := by
  unfold Distinct keys
  rw [List.map_map]
  exact h

/-- Entries written one after another have distinct names. -/
theorem distinct_ofList (pairs : List (String × α)) : Distinct (ofList pairs) := by
  suffices ∀ acc : List (String × α), Distinct acc →
      Distinct (pairs.foldl (fun entries pair => insert pair.1 pair.2 entries) acc) from
    this [] List.nodup_nil
  induction pairs with
  | nil => exact fun _ h => h
  | cons p pairs ih => exact fun acc h => ih _ (distinct_insert p.1 p.2 h)

/-- A new name is put at the end. -/
theorem insert_of_notMem {key : String} {l : List (String × α)} (h : key ∉ keys l) (value : α) :
    insert key value l = l ++ [(key, value)] := by
  induction l with
  | nil => rfl
  | cons p l ih =>
    obtain ⟨hp, hrest⟩ := not_or.1 (mt List.mem_cons.2 h)
    rw [insert, if_neg (Ne.symm hp), ih hrest, List.cons_append]

/-- Entries with distinct names are what is left by writing them one after another. -/
theorem ofList_of_distinct {pairs : List (String × α)} (h : Distinct pairs) :
    ofList pairs = pairs := by
  suffices ∀ done : List (String × α), Distinct (done ++ pairs) →
      pairs.foldl (fun entries pair => insert pair.1 pair.2 entries) done = done ++ pairs from
    this [] h
  clear h
  induction pairs with
  | nil => exact fun done _ => (List.append_nil done).symm
  | cons p pairs ih =>
    intro done h
    have hnew : p.1 ∉ keys done := by
      intro hp
      rw [Distinct, keys, List.map_append, List.nodup_append] at h
      exact h.2.2 p.1 hp p.1 List.mem_cons_self rfl
    rw [List.append_cons] at h ⊢
    rw [List.foldl_cons, insert_of_notMem hnew, ih _ h]

/-- Entries written one after another are all among what was written. -/
theorem mem_ofList {pairs : List (String × α)} {e : String × α} (h : e ∈ ofList pairs) :
    e ∈ pairs := by
  suffices ∀ acc : List (String × α),
      e ∈ pairs.foldl (fun entries pair => insert pair.1 pair.2 entries) acc →
        e ∈ acc ∨ e ∈ pairs from
    (this [] h).resolve_left List.not_mem_nil
  clear h
  induction pairs with
  | nil => exact fun acc h => .inl h
  | cons p pairs ih =>
    intro acc h
    rcases ih _ h with h | h
    · rcases mem_insert h with rfl | h
      · exact .inr List.mem_cons_self
      · exact .inl h
    · exact .inr (List.mem_cons_of_mem _ h)

/-- The names of entries written one after another are the names that were written. -/
theorem mem_keys_ofList {pairs : List (String × α)} {key : String} :
    key ∈ keys (ofList pairs) ↔ key ∈ keys pairs := by
  suffices ∀ acc : List (String × α),
      key ∈ keys (pairs.foldl (fun entries pair => insert pair.1 pair.2 entries) acc) ↔
        key ∈ keys acc ∨ key ∈ keys pairs by
    simpa [ofList] using this []
  induction pairs with
  | nil => simp
  | cons p pairs ih =>
    intro acc
    have hinsert : key ∈ keys (insert p.1 p.2 acc) ↔ key ∈ keys acc ∨ key = p.1 := by
      rw [keys_insert]
      by_cases hp : p.1 ∈ keys acc
      · rw [if_pos hp]
        exact ⟨.inl, fun h => h.elim id fun h => h ▸ hp⟩
      · simp [if_neg hp]
    rw [List.foldl_cons, ih, hinsert, keys_cons, List.mem_cons, or_assoc]

/-- Written one after another under the same value, names are entries of this value. -/
theorem mem_ofList_const {names : List String} {value : α} {e : String × α} :
    e ∈ ofList (names.map fun name => (name, value)) ↔ e.1 ∈ names ∧ e.2 = value := by
  have hkeys (key : String) :
      key ∈ keys (ofList (names.map fun name => (name, value))) ↔ key ∈ names := by
    rw [mem_keys_ofList]
    simp [keys]
  have hvalue {e : String × α} (he : e ∈ ofList (names.map fun name => (name, value))) :
      e.2 = value := by
    obtain ⟨name, -, rfl⟩ := List.mem_map.1 (mem_ofList he)
    rfl
  constructor
  · intro he
    exact ⟨(hkeys e.1).1 (List.mem_map_of_mem he), hvalue he⟩
  · rintro ⟨hname, rfl⟩
    obtain ⟨e', he', hkey⟩ := List.mem_map.1 ((hkeys e.1).2 hname)
    have heq : e' = e := Prod.ext hkey (hvalue he')
    exact heq ▸ he'

end Conform.Entries

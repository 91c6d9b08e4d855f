import Conform.Proofs.Equality
import Conform.Proofs.Evidence
import Mathlib.Tactic.SplitIfs

/-!
# Line breaks

The lines of a text are its pieces between line breaks. `Text.flatMap_pieces_eq_iff` says when texts
that are put under one another are the lines that come out: exactly if none of them has a line break
itself. The text of a number never has one (`Double.oneLine_toText`), and that of a value has none
if no text in the value has one (`Value.OneLine.toText`, by induction on the value).
-/

namespace Conform

namespace Text

/-- The parts of a text between line breaks. -/
def pieces (text : String) : List String := (text.toList.splitOn '\n').map String.ofList

/-- The lines of a text. The empty text has none. -/
def lines (text : String) : List String := if text = "" then [] else pieces text

/-- The text has no line break. -/
def OneLine (text : String) : Prop := Lacks '\n' text

instance (text : String) : Decidable (OneLine text) := inferInstanceAs (Decidable (Lacks '\n' text))

/-- A text that is not empty has its parts for lines. -/
theorem lines_eq_pieces {text : String} (h : text ≠ "") : lines text = pieces text := if_neg h

/-- A text without line breaks is one piece. -/
theorem OneLine.pieces_eq {text : String} (h : OneLine text) : pieces text = [text] := by
  rw [pieces, List.splitOn_eq_singleton h, List.map_singleton, String.ofList_toList]

/-- The characters between line breaks are none. -/
theorem newline_notMem_of_mem_splitOn {cs part : List Char} (h : part ∈ cs.splitOn '\n') :
    '\n' ∉ part := by
  induction cs generalizing part with
  | nil =>
    rw [List.splitOn_nil, List.mem_singleton] at h
    exact h ▸ List.not_mem_nil
  | cons c rest ih =>
    rw [List.splitOn_cons_eq_if_modifyHead] at h
    split at h
    · rcases List.mem_cons.1 h with rfl | hrest
      · exact List.not_mem_nil
      · exact ih hrest
    · rename_i hc
      -- The character goes to the front of the first part.
      obtain ⟨head, tail, hparts⟩ := List.exists_cons_of_ne_nil (List.splitOn_ne_nil '\n' rest)
      rw [hparts] at ih h
      rcases List.mem_cons.1 h with rfl | htail
      · have hne : '\n' ≠ c := fun heq => hc (beq_iff_eq.2 heq.symm)
        exact List.not_mem_cons_of_ne_of_not_mem hne (ih List.mem_cons_self)
      · exact ih (List.mem_cons_of_mem _ htail)

/-- No piece has a line break. -/
theorem oneLine_of_mem_pieces {text piece : String} (h : piece ∈ pieces text) : OneLine piece := by
  obtain ⟨cs, hcs, rfl⟩ := List.mem_map.1 h
  unfold OneLine Lacks
  rw [String.toList_ofList]
  exact newline_notMem_of_mem_splitOn hcs

/-- A line break between two texts parts them. -/
theorem pieces_append (first second : String) :
    pieces (first ++ "\n" ++ second) = pieces first ++ pieces second := by
  have h : (first ++ "\n" ++ second).toList = first.toList ++ '\n' :: second.toList := by simp
  rw [pieces, h, List.splitOn_append_cons_self, List.map_append]
  rfl

/-- Texts that are joined by line breaks have the pieces of all, one after another. -/
theorem pieces_intercalate {texts : List String} (h : texts ≠ []) :
    pieces ("\n".intercalate texts) = texts.flatMap pieces := by
  induction texts with
  | nil => exact absurd rfl h
  | cons text rest ih =>
    by_cases hrest : rest = []
    · simp [hrest]
    · rw [String.intercalate_cons_of_ne_nil hrest, pieces_append, ih hrest, List.flatMap_cons]

/-- Texts that are put behind one another, each after a line break, have the pieces of all. -/
theorem pieces_append_join (first : String) (texts : List String) :
    pieces (first ++ String.join (texts.map ("\n" ++ ·))) = pieces first ++ texts.flatMap pieces := by
  induction texts generalizing first with
  | nil => simp
  | cons text rest ih =>
    rw [List.map_cons, String.join_cons, List.flatMap_cons, ← String.append_assoc,
      ← String.append_assoc, ih, pieces_append, List.append_assoc]

/-- What is in front of a text is in front of its first piece. -/
theorem pieces_indent {indent : String} (h : OneLine indent) (text : String) :
    pieces (indent ++ text) = (pieces text).modifyHead (indent ++ ·) := by
  have hchars (front cs : List Char) (hfront : '\n' ∉ front) :
      (front ++ cs).splitOn '\n' = (cs.splitOn '\n').modifyHead (front ++ ·) := by
    induction front with
    | nil => exact List.modifyHead_id.symm ▸ rfl
    | cons c rest ih =>
      obtain ⟨hc, hrest⟩ := List.ne_and_not_mem_of_not_mem_cons hfront
      have hne : ¬ (c == '\n') = true := fun heq => hc (beq_iff_eq.1 heq).symm
      rw [List.cons_append, List.splitOn_cons_eq_if_modifyHead, if_neg hne, ih hrest,
        List.modifyHead_modifyHead]
      rfl
  rw [pieces, String.toList_append, hchars _ _ h, pieces]
  cases text.toList.splitOn '\n' with
  | nil => rfl
  | cons head tail => simp

/-- Texts are their own pieces exactly if none of them has a line break. -/
theorem flatMap_pieces_eq_iff {texts : List String} :
    texts.flatMap pieces = texts ↔ ∀ text ∈ texts, OneLine text := by
  constructor
  · intro h text htext
    rw [← h] at htext
    obtain ⟨_, -, hpiece⟩ := List.mem_flatMap.1 htext
    exact oneLine_of_mem_pieces hpiece
  · intro h
    calc texts.flatMap pieces = texts.flatMap fun text => [text] :=
          List.flatMap_congr fun text htext => (h text htext).pieces_eq
      _ = texts := List.flatMap_singleton' texts

/-- Characters have no line break as a text exactly if it is none of them. -/
theorem oneLine_ofList {cs : List Char} : OneLine (String.ofList cs) ↔ '\n' ∉ cs := by
  unfold OneLine Lacks
  rw [String.toList_ofList]

/-- Texts without line breaks have none together. -/
theorem OneLine.append {first second : String} (h : OneLine first) (h' : OneLine second) :
    OneLine (first ++ second) := Lacks.append h h'

/-- The decimal digits of a number have no line break. -/
theorem oneLine_toString (n : Nat) : OneLine (toString n) := lacks_toString (by decide) n

/-- Texts joined by a text have no line break if none of them has. -/
theorem oneLine_intercalate {separator : String} (hseparator : OneLine separator)
    {texts : List String} (h : ∀ text ∈ texts, OneLine text) :
    OneLine (separator.intercalate texts) := by
  induction texts with
  | nil => exact List.not_mem_nil
  | cons text rest ih =>
    obtain ⟨htext, hrest⟩ := List.forall_mem_cons.1 h
    by_cases hnil : rest = []
    · simpa [hnil] using htext
    · rw [String.intercalate_cons_of_ne_nil hnil]
      exact (htext.append hseparator).append (ih hrest)

end Text

open Text

/-! ## Texts of numbers and of values -/

namespace Layout

/-- A decimal that is written out has no line break. -/
theorem oneLine_plain (layout : Layout) (d : Decimal) : OneLine (layout.plain d) := by
  have hdigits : '\n' ∉ Nat.toDigits 10 d.digits := notMem_toDigits (by decide) d.digits
  unfold plain
  dsimp only
  generalize Nat.toDigits 10 d.digits = digits at hdigits ⊢
  split_ifs
  · exact (oneLine_ofList.2 (by simp [hdigits])).append (by decide)
  · exact (oneLine_ofList.2 (by simp [hdigits])).append (by decide)
  · have htake (n : Nat) : '\n' ∉ digits.take n := fun h => hdigits (List.mem_of_mem_take h)
    have hdrop (n : Nat) : '\n' ∉ digits.drop n := fun h => hdigits (List.mem_of_mem_drop h)
    exact oneLine_ofList.2 (by simp [htake, hdrop])
  · exact oneLine_ofList.2 (by simp [hdigits])

/-- A decimal with a power of ten has no line break. -/
theorem oneLine_scientific (d : Decimal) : OneLine (scientific d) := by
  have hdigits : '\n' ∉ Nat.toDigits 10 d.digits := notMem_toDigits (by decide) d.digits
  unfold scientific
  dsimp only
  refine ((oneLine_ofList.2 ?_).append ?_).append (oneLine_toString _)
  · generalize Nat.toDigits 10 d.digits = digits at hdigits ⊢
    split
    · simpa using hdigits
    · exact hdigits
  · split <;> decide

end Layout

/-- The text of a number has no line break. -/
theorem Double.oneLine_toText (d : Double) : OneLine d.toText := by
  cases d with
  | nan => decide
  | infinity negative => cases negative <;> decide
  | finite negative x =>
    rw [toText]
    by_cases hzero : x.mantissa = 0
    · rw [if_pos hzero]
      decide
    · rw [if_neg hzero, Layout.signed, Layout.magnitude, if_neg hzero]
      refine OneLine.append (by split <;> decide) ?_
      dsimp only
      split
      · exact Layout.oneLine_plain _ _
      · exact Layout.oneLine_scientific _

namespace Value

/-- The texts that the value itself holds: that of a string, and the keys of an object. -/
def ownTexts : Value → List String
  | .string s => [s]
  | value => value.ownKeys

/-- No text in the value has a line break. -/
def OneLine (value : Value) : Prop :=
  value.Every fun part => ∀ text ∈ part.ownTexts, Text.OneLine text

/-- What an object has under a name has no line breaks if the object has none. -/
theorem OneLine.get {value : Value} (h : value.OneLine) (name : String) :
    (value.get name).OneLine :=
  Every.get h (fun _ htext => absurd htext List.not_mem_nil) name

/-- The text of a value without line breaks has none. -/
theorem OneLine.toText {value : Value} (h : value.OneLine) : Text.OneLine value.toText := by
  induction value with
  | node value ih =>
    cases value with
    | undefined | null => decide
    | bool b => cases b <;> decide
    | number d => exact d.oneLine_toText
    | string s => exact h.here s (List.mem_singleton_self s)
    | array items =>
      rw [Value.toText, itemTexts_eq]
      refine oneLine_intercalate (by decide) fun text htext => ?_
      obtain ⟨item, hitem, rfl⟩ := List.mem_map.1 htext
      have htext := ih item hitem (h.child hitem)
      cases item with
      | undefined | null => decide
      | _ => exact htext
    | object entries =>
      rw [Value.toText]
      decide

end Value

end Conform

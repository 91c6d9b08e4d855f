import Conform.Json.Printer

/-!
# Writing the parts of a list or an object

A writer puts the parts of a list or an object out one after another, as they come. It is told
beforehand how many there will be, and if there are to be none it writes the closing bracket at
once and not again at the end. It does not count what comes. Where as many parts come as were
announced, or where some do and some were announced, it writes what `Json.commaSeparated` has
between the brackets: `bracketed_eq`.
-/

namespace Conform.Json

/-- Where a writer stands: behind both brackets, behind the opening one, or behind a part. -/
inductive Writer.Stage where
  | closed
  | opened
  | continued
  deriving DecidableEq

/-- What a writer has put out, and where it stands. -/
structure Writer where
  text : String
  stage : Writer.Stage

namespace Writer

/-- A writer in front of the parts, so many of which are announced. -/
def start (opening closing : String) (announced : Nat) : Writer :=
  if announced = 0 then ⟨opening ++ closing, .closed⟩ else ⟨opening, .opened⟩

/-- Puts a part out, with a comma in front unless the opening bracket is there. -/
def put (w : Writer) (part : String) : Writer where
  text := w.text ++ (if w.stage = .opened then "" else ",") ++ part
  stage := .continued

/-- The whole text, with the closing bracket unless it is there already. -/
def finish (w : Writer) (closing : String) : String :=
  if w.stage = .closed then w.text else w.text ++ closing

end Writer

/-- The text of a list or an object that is written part by part. -/
def bracketed (opening closing : String) (announced : Nat) (parts : List String) : String :=
  (parts.foldl Writer.put (.start opening closing announced)).finish closing

/-- Behind a part, each part that follows has a comma in front. -/
theorem Writer.foldl_put_continued (text part : String) (parts : List String) :
    parts.foldl put ⟨text ++ part, .continued⟩ =
      ⟨text ++ commaSeparated (part :: parts), .continued⟩ := by
  unfold commaSeparated
  induction parts generalizing part with
  | nil => rw [String.intercalate_singleton, List.foldl_nil]
  | cons next rest ih =>
    have hput : put ⟨text ++ part, .continued⟩ next =
        ⟨text ++ (part ++ "," ++ next), .continued⟩ := by
      simp [put, String.append_assoc]
    rw [List.foldl_cons, hput, ih, String.intercalate_cons_append, String.intercalate_cons_cons,
      String.append_assoc]

/-- If no part is announced exactly where none comes, the brackets are around the parts with commas
between them. -/
theorem bracketed_eq (opening closing : String) {announced : Nat} {parts : List String}
    (h : announced = 0 ↔ parts = []) :
    bracketed opening closing announced parts = opening ++ commaSeparated parts ++ closing := by
  unfold bracketed Writer.start
  cases parts with
  | nil =>
    rw [if_pos (h.2 rfl)]
    simp [Writer.finish, commaSeparated]
  | cons part rest =>
    have hsome : announced ≠ 0 := fun hnone => List.cons_ne_nil part rest (h.1 hnone)
    have hput : Writer.put ⟨opening, .opened⟩ part = ⟨opening ++ part, .continued⟩ := by
      simp [Writer.put]
    rw [if_neg hsome, List.foldl_cons, hput, Writer.foldl_put_continued]
    rfl

end Conform.Json

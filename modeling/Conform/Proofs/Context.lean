import Conform.Evaluation.Basic
import Conform.Proofs.Path

/-!
# The context of a walk

The path and the log that a walk is given are its context, and it has no other. What it comes to is
settled by the schema and the value: `walk_eq_under` says that any walk is the walk from the empty
path on an empty log, with its verdict as it is and its messages put under the path and behind the
log. A root label is such a path, so `evaluateAt` under another label is the same evaluation with
the label exchanged, and walks that are made one after another on one log (`walkEach`) all are what
they are alone. `walk_independent_of_context` holds the three together.
-/

namespace Conform

/-- A walk to be made: a value, the schema it is walked under, and the path it starts from. -/
structure Visit where
  schema : Schema
  input : Value
  path : String

/-- Makes walks one after another on one log. -/
def walkEach : List Visit → Log → List Verdict × Log
  | [], log => ([], log)
  | visit :: rest, log =>
    let (verdict, log) := visit.schema.walk visit.input visit.path log
    let (verdicts, log) := walkEach rest log
    (verdict :: verdicts, log)

namespace Schema

/-- The messages of a walk, as they are put at the end of a log. -/
theorem toArray_messages (schema : Schema) (input : Value) (path : String) :
    (schema.messages input path).toArray =
      (schema.walk input "" #[]).2.map (Message.under path) := by
  rw [messages_eq_under]
  unfold messages
  rw [← List.map_toArray, Array.toArray_toList]

/-- A walk is the walk from the empty path on an empty log, with its messages under the path and
behind the log. -/
theorem walk_eq_under (schema : Schema) (input : Value) (path : String) (log : Log) :
    schema.walk input path log =
      ((schema.walk input "" #[]).1,
        log ++ (schema.walk input "" #[]).2.map (Message.under path)) := by
  rw [walk_eq, toArray_messages]
  rfl

/-- An evaluation under a root label is the walk with its messages under the label. -/
theorem evaluateAt_eq (root : String) (schema : Schema) (input : Value) :
    schema.evaluateAt root input =
      ⟨(schema.walk input "" #[]).1.outcome, (schema.walk input "" #[]).1.validation,
        (schema.walk input "" #[]).2.map (Message.under root)⟩ := by
  have hlog : (#[] : Log) ++ (schema.walk input "" #[]).2.map (Message.under root) =
      (schema.walk input "" #[]).2.map (Message.under root) := Array.empty_append
  unfold evaluateAt
  rw [walk_eq_under schema input root, hlog]

end Schema

/-- Walks on one log have the verdicts that they have alone, and leave one after another the
messages that they leave alone. -/
theorem walkEach_eq (visits : List Visit) (log : Log) :
    walkEach visits log =
      (visits.map fun v => (v.schema.walk v.input "" #[]).1,
        log ++ (visits.flatMap fun v =>
          ((v.schema.walk v.input "" #[]).2.map (Message.under v.path)).toList).toArray) := by
  induction visits generalizing log with
  | nil => simp [walkEach]
  | cons visit rest ih =>
    -- The first walk finds the log as it is, and the others find its messages there.
    rw [walkEach, Schema.walk_eq_under visit.schema visit.input visit.path log]
    simp only [ih, List.map_cons, List.flatMap_cons, ← List.append_toArray, Array.toArray_toList,
      Array.append_assoc]

/-- A walk has the same verdict at every path and on every log, and puts its messages under the path
and behind the log. With another label for the root, an evaluation is the same but for the label in
front of the paths, and walks that share a log do not affect each other. -/
theorem walk_independent_of_context :
    (∀ (schema : Schema) (input : Value) (path : String) (log : Log),
      schema.walk input path log =
        ((schema.walk input "" #[]).1,
          log ++ (schema.walk input "" #[]).2.map (Message.under path))) ∧
    (∀ (schema : Schema) (input : Value), ∃ unlabelled : Log,
      (schema.evaluate input).messages = unlabelled.map (Message.under Schema.rootLabel) ∧
        ∀ root, schema.evaluateAt root input =
          { schema.evaluate input with messages := unlabelled.map (Message.under root) }) ∧
    ∀ (visits : List Visit) (log : Log),
      walkEach visits log =
        (visits.map fun v => (v.schema.walk v.input "" #[]).1,
          log ++ (visits.flatMap fun v =>
            ((v.schema.walk v.input "" #[]).2.map (Message.under v.path)).toList).toArray) := by
  refine ⟨Schema.walk_eq_under, fun schema input => ?_, walkEach_eq⟩
  refine ⟨(schema.walk input "" #[]).2, ?_, fun root => ?_⟩
  · unfold Schema.evaluate
    rw [Schema.evaluateAt_eq]
  · unfold Schema.evaluate
    rw [Schema.evaluateAt_eq, Schema.evaluateAt_eq]

end Conform

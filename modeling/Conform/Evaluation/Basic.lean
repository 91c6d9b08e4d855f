import Conform.Walk

/-!
# Evaluations

An evaluation is a walk from the root with a fresh log. It never fails itself: what is wrong with
the data is in its outcome, its tree and its messages. `Evaluation.result` turns it into the value
or a failure that can be reported.
-/

namespace Conform

/-- All that a validation yields. -/
structure Evaluation where
  outcome : Outcome
  validation : Validation
  messages : Log

/-- The failure of a validation. -/
structure ValidationFailure where
  validation : Validation
  messages : Log

/-- The lines of the failure's messages. -/
def ValidationFailure.report (f : ValidationFailure) : String := f.messages.report

/-- The text of the failure. -/
def ValidationFailure.message (f : ValidationFailure) : String :=
  "Validation failed:\n" ++ f.report

namespace Evaluation

/-- Whether there is a result. -/
def isValid (e : Evaluation) : Bool := e.outcome.isValid

/-- The lines of the messages. -/
def report (e : Evaluation) : String := e.messages.report

/-- The value of the result, or the failure. -/
def result (e : Evaluation) : Except ValidationFailure Value :=
  match e.outcome with
  | .valid value => .ok value
  | .invalid => .error ⟨e.validation, e.messages⟩

end Evaluation

namespace Schema

/-- How the root is called in paths. -/
def rootLabel : String := "root"

/-- Validates a value whose root has a label of the caller's choice. -/
def evaluateAt (root : String) (schema : Schema) (input : Value) : Evaluation :=
  let (verdict, log) := schema.walk input root #[]
  ⟨verdict.outcome, verdict.validation, log⟩

/-- Validates a value. -/
def evaluate (schema : Schema) (input : Value) : Evaluation := schema.evaluateAt rootLabel input

/-- The validated value, or the failure. -/
def assertValid (schema : Schema) (input : Value) : Except ValidationFailure Value :=
  (schema.evaluate input).result

end Schema

end Conform

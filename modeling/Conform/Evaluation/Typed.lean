import Conform.Evaluation.Basic
import Conform.Json.Typed
import Conform.Value.Json

/-!
# Typed results

A result can be read as data of a type of the caller's, by way of JSON.
-/

namespace Conform

/-- Why an evaluation has no result of a type. -/
inductive TypedFault where
  | invalid (failure : ValidationFailure)
  | number (e : NonFinite)
  | mismatch (m : Mismatch)

/-- The wording of a fault. -/
def TypedFault.message : TypedFault → String
  | .invalid failure => failure.message
  | .number e => "value error: " ++ e.message
  | .mismatch m => "json error: " ++ m.message

/-- The result of an evaluation as data of a type. -/
def Evaluation.read {α : Type} (reader : Json.Typed α) (e : Evaluation) : Except TypedFault α := do
  let value ← e.result.mapError TypedFault.invalid
  let document ← value.toJson.mapError TypedFault.number
  (reader document).mapError TypedFault.mismatch

end Conform

import Conform.Evaluation.Basic
import Conform.Load
import Conform.Schema.Text

/-!
# Reports on files

The two jobs of the program: `checkFiles` validates documents against a schema document and reports
on each, `lintSchema` loads a schema document and reports on its shape. Both either come to an exit
code and a text to print, or fail and print nothing.
-/

namespace Conform

/-- Why a job fails. -/
inductive JobFault where
  | schemaFile (path : String) (fault : LoadFault)
  | schema (path : String) (fault : BuildFault)
  | documentFile (path : String) (fault : LoadFault)
  | result (file : String) (fault : NonFinite)
  | noSchema

/-- The wording of a file that cannot be loaded. -/
def loadMessage (path : String) (fault : LoadFault) : String :=
  "document load error for '" ++ path ++ "': " ++ fault.message

/-- The wording of a fault, from the job down to the cause. -/
def JobFault.message : JobFault → String
  | .schemaFile path fault =>
    "failed to load schema document " ++ path ++ ": " ++ loadMessage path fault
  | .schema path fault => "invalid schema document " ++ path ++ ": " ++ fault.message
  | .documentFile path fault => "failed to read document " ++ path ++ ": " ++ loadMessage path fault
  | .result file fault =>
    "result for " ++ file ++ " is not representable as JSON: " ++ fault.message
  | .noSchema => "--schema is required"

/-- What a job comes to. -/
structure JobResult where
  /-- The exit code: zero, or one if a document is not valid. -/
  code : Nat
  /-- What is printed. -/
  output : String
  deriving DecidableEq

/-- The report on a document. -/
structure DocumentReport where
  file : String
  valid : Bool
  /-- The result, unless the document is not valid or its result is absent. -/
  result : Option Json
  validation : Validation
  messages : Log

namespace DocumentReport

/-- The report as text: a line that tells the verdict, and a line for each message. -/
def render (r : DocumentReport) : String :=
  (if r.valid then "PASS: " else "FAIL: ") ++ r.file ++
    String.join (r.messages.toList.map fun m => "\n  " ++ m.line)

/-- The report as JSON. -/
def toJson (r : DocumentReport) : Json :=
  .object
    [("file", .string r.file), ("valid", .bool r.valid), ("result", r.result.getD .null),
      ("validation", r.validation.toJson),
      ("messages", .array (r.messages.toList.map Message.toJson))]

end DocumentReport

/-- How reports are printed. -/
inductive ReportFormat where
  | text
  | json
  deriving DecidableEq

/-- The result of an evaluation as JSON, if there is one that is not absent. -/
def Outcome.toJson? : Outcome → Except NonFinite (Option Json)
  | .invalid => .ok none
  | .valid .undefined => .ok none
  | .valid value => value.toJson.map some

/-- Validates a value under the name of a file. -/
def checkValue (schema : Schema) (file : String) (input : Value) (root : String) :
    Except JobFault DocumentReport := do
  let e := schema.evaluateAt root input
  let result ← e.outcome.toJson?.mapError (JobFault.result file)
  return ⟨file, e.isValid, result, e.validation, e.messages⟩

/-- Validates the document in a file. -/
def checkFile (files : Files) (schema : Schema) (root path : String) :
    Except JobFault DocumentReport := do
  let input ← (Value.load files path).mapError (JobFault.documentFile path)
  checkValue schema path input root

/-- Loads a schema document and builds it with the builtin parsers. -/
def loadSchema (files : Files) (path : String) : Except JobFault Schema := do
  let document ← (Document.load files path).mapError (JobFault.schemaFile path)
  (document.build .builtins).mapError (JobFault.schema path)

/-- The reports as they are printed. -/
def renderReports (format : ReportFormat) (reports : List DocumentReport) : String :=
  match format with
  | .text =>
    let passed := (reports.filter (·.valid)).length
    String.join (reports.map fun r => r.render ++ "\n") ++
      "Documents: " ++ toString passed ++ "/" ++ toString reports.length ++ " passed\n"
  | .json => (Json.array (reports.map DocumentReport.toJson)).pretty ++ "\n"

/-- What is to be checked. -/
structure CheckJob where
  schema : String
  documents : List String
  format : ReportFormat
  /-- The label of the roots, if it is not the usual one. -/
  root : Option String
  deriving DecidableEq

/-- Validates documents against a schema document. -/
def checkFiles (files : Files) (job : CheckJob) : Except JobFault JobResult := do
  let schema ← loadSchema files job.schema
  let root := job.root.getD Schema.rootLabel
  let reports ← job.documents.mapM (checkFile files schema root)
  return ⟨if reports.all (·.valid) then 0 else 1, renderReports job.format reports⟩

/-- What is to be told of a schema document. -/
structure LintJob where
  schema : Option String
  /-- Whether the schema is printed in type notation. -/
  render : Bool
  /-- Whether only the names of the builtin parsers are printed. -/
  listParsers : Bool
  deriving DecidableEq

/-- Loads a schema document and tells its shape. -/
def lintSchema (files : Files) (job : LintJob) : Except JobFault JobResult := do
  if job.listParsers then
    return ⟨0, String.join (Registry.builtins.names.map (· ++ "\n"))⟩
  else
    match job.schema with
    | none => throw .noSchema
    | some path =>
      let schema ← loadSchema files path
      let rendered := if job.render then "  " ++ schema.typeText ++ "\n" else ""
      return ⟨0, "OK: " ++ schema.summary path ++ "\n" ++ rendered⟩

end Conform

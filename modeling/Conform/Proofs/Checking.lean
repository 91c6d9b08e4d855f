import Conform.CommandLine
import Conform.Proofs.Context
import Conform.Proofs.Failure
import Conform.Proofs.Matching

/-!
# Checking files

A check either reports on all its documents or fails with the first fault and prints nothing. The
faults that there are to find are listed by `SchemaFails` and `ReportFails`, and `ReportsOn` is the
report on a document that has none. One document is dealt with in `checkFile_eq_ok` and
`checkFile_eq_error`, and the list of them by what is known of work on each member of a list.

The exit code tells how many documents pass, and neither the format nor the label of the roots is
in it: no fault depends on them, and of a report only the messages do.
-/

namespace Conform

/-! ## What there is to find -/

/-- The path is that of a document of the schema. -/
def IsSchema (files : Files) (path : String) (schema : Schema) : Prop :=
  ∃ document, Document.load files path = .ok document ∧ document.build .builtins = .ok schema

/-- Why there is no schema at a path. -/
inductive SchemaFails (files : Files) (path : String) : JobFault → Prop
  /-- There is no document. -/
  | unread {fault : LoadFault} (hload : Document.load files path = .error fault) :
    SchemaFails files path (.schemaFile path fault)
  /-- The document has no schema. -/
  | unbuilt {document : Document} {fault : BuildFault}
    (hload : Document.load files path = .ok document)
    (hbuild : document.build .builtins = .error fault) :
    SchemaFails files path (.schema path fault)

/-- Why there is no report on the value at a path. -/
inductive ReportFails (files : Files) (schema : Schema) (path : String) : JobFault → Prop
  /-- There is no value. -/
  | unread {fault : LoadFault} (hload : Value.load files path = .error fault) :
    ReportFails files schema path (.documentFile path fault)
  /-- The result has no JSON. -/
  | unwritten {input result : Value} {fault : NonFinite}
    (hload : Value.load files path = .ok input)
    (hresult : (schema.evaluate input).outcome = .valid result)
    (hjson : result.toJson = .error fault) :
    ReportFails files schema path (.result path fault)

/-- What a report says of a result: its JSON, and nothing if it is absent or there is none. -/
inductive ResultReported : Outcome → Option Json → Prop
  | invalid : ResultReported .invalid none
  | absent : ResultReported (.valid .undefined) none
  | written {result : Value} {json : Json} (hdefined : result ≠ .undefined)
    (hjson : result.toJson = .ok json) : ResultReported (.valid result) (some json)

/-- The report on the value at a path. Only its messages depend on the label of the root. -/
inductive ReportsOn (files : Files) (schema : Schema) (root path : String) : DocumentReport → Prop
  | intro {input : Value} {result : Option Json} (hload : Value.load files path = .ok input)
    (hresult : ResultReported (schema.evaluate input).outcome result) :
    ReportsOn files schema root path
      ⟨path, (schema.evaluate input).isValid, result, (schema.evaluate input).validation,
        (schema.evaluateAt root input).messages⟩

/-- Whether the value at a path is valid. -/
def passes (files : Files) (schema : Schema) (path : String) : Bool :=
  match Value.load files path with
  | .ok input => (schema.evaluate input).isValid
  | .error _ => false

/-! ## One document -/

/-- A path leads to the schema that it is the path of. -/
theorem loadSchema_eq_ok {files : Files} {path : String} {schema : Schema} :
    loadSchema files path = .ok schema ↔ IsSchema files path schema := by
  simp only [loadSchema, IsSchema, bind_eq_ok, mapError_eq_ok]

/-- A path leads to no schema for one of the reasons that there are. -/
theorem loadSchema_eq_error {files : Files} {path : String} {fault : JobFault} :
    loadSchema files path = .error fault ↔ SchemaFails files path fault := by
  rw [loadSchema, bind_eq_error, mapError_eq_error]
  constructor
  · rintro (⟨fault, hload, rfl⟩ | ⟨document, hload, hbuild⟩)
    · exact .unread hload
    · obtain ⟨fault, hfault, rfl⟩ := mapError_eq_error.1 hbuild
      exact .unbuilt (mapError_eq_ok.1 hload) hfault
  · rintro (hload | ⟨hload, hbuild⟩)
    · exact .inl ⟨_, hload, rfl⟩
    · exact .inr ⟨_, mapError_eq_ok.2 hload, mapError_eq_error.2 ⟨_, hbuild, rfl⟩⟩

/-- A result is told as reports tell it. -/
theorem toJson?_eq_ok {outcome : Outcome} {result : Option Json} :
    outcome.toJson? = .ok result ↔ ResultReported outcome result := by
  constructor
  · intro h
    unfold Outcome.toJson? at h
    split at h
    · obtain rfl := Except.ok.inj h
      exact .invalid
    · obtain rfl := Except.ok.inj h
      exact .absent
    · rename_i value hdefined
      obtain ⟨json, hjson, rfl⟩ := map_eq_ok.1 h
      exact .written hdefined hjson
  · rintro (_ | _ | ⟨hdefined, hjson⟩)
    · rfl
    · rfl
    · rw [Outcome.toJson?, map_eq_ok]
      · exact ⟨_, hjson, rfl⟩
      · exact hdefined

/-- A result cannot be told if it has no JSON. -/
theorem toJson?_eq_error {outcome : Outcome} {fault : NonFinite} :
    outcome.toJson? = .error fault ↔
      ∃ result, outcome = .valid result ∧ result.toJson = .error fault := by
  constructor
  · intro h
    unfold Outcome.toJson? at h
    split at h
    · cases h
    · cases h
    · exact ⟨_, rfl, map_eq_error.1 h⟩
  · rintro ⟨result, rfl, hjson⟩
    rw [Outcome.toJson?, map_eq_error]
    · exact hjson
    · rintro rfl
      cases hjson

/-- Under any label the outcome and the tree are the same. -/
theorem checkValue_eq (schema : Schema) (file : String) (input : Value) (root : String) :
    checkValue schema file input root = do
      let result ← (schema.evaluate input).outcome.toJson?.mapError (JobFault.result file)
      return ⟨file, (schema.evaluate input).isValid, result, (schema.evaluate input).validation,
        (schema.evaluateAt root input).messages⟩ := by
  unfold checkValue Schema.evaluate Evaluation.isValid
  simp only [Schema.evaluateAt_eq]

/-- A value is reported on with what reports say of its result. -/
theorem checkValue_eq_ok {schema : Schema} {file : String} {input : Value} {root : String}
    {report : DocumentReport} :
    checkValue schema file input root = .ok report ↔
      ∃ result, ResultReported (schema.evaluate input).outcome result ∧
        ⟨file, (schema.evaluate input).isValid, result, (schema.evaluate input).validation,
          (schema.evaluateAt root input).messages⟩ = report := by
  rw [checkValue_eq, bind_eq_ok]
  refine exists_congr fun result => ?_
  rw [mapError_eq_ok, toJson?_eq_ok]
  exact and_congr_right fun _ => ⟨Except.ok.inj, congrArg Except.ok⟩

/-- A document is reported on as reports do. -/
theorem checkFile_eq_ok {files : Files} {schema : Schema} {root path : String}
    {report : DocumentReport} :
    checkFile files schema root path = .ok report ↔ ReportsOn files schema root path report := by
  rw [checkFile, bind_eq_ok]
  constructor
  · rintro ⟨input, hload, h⟩
    obtain ⟨result, hresult, rfl⟩ := checkValue_eq_ok.1 h
    exact .intro (mapError_eq_ok.1 hload) hresult
  · rintro ⟨hload, hresult⟩
    exact ⟨_, mapError_eq_ok.2 hload, checkValue_eq_ok.2 ⟨_, hresult, rfl⟩⟩

/-- A document is not reported on for one of the reasons that there are. -/
theorem checkFile_eq_error {files : Files} {schema : Schema} {root path : String}
    {fault : JobFault} :
    checkFile files schema root path = .error fault ↔ ReportFails files schema path fault := by
  rw [checkFile, bind_eq_error, mapError_eq_error]
  constructor
  · rintro (⟨fault, hload, rfl⟩ | ⟨input, hload, h⟩)
    · exact .unread hload
    · rw [checkValue_eq, bind_eq_error, mapError_eq_error] at h
      obtain ⟨fault, hresult, rfl⟩ | ⟨_, -, h⟩ := h
      · obtain ⟨result, hresult, hjson⟩ := toJson?_eq_error.1 hresult
        exact .unwritten (mapError_eq_ok.1 hload) hresult hjson
      · cases h
  · rintro (hload | ⟨hload, hresult, hjson⟩)
    · exact .inl ⟨_, hload, rfl⟩
    · refine .inr ⟨_, mapError_eq_ok.2 hload, ?_⟩
      rw [checkValue_eq, bind_eq_error, mapError_eq_error]
      exact .inl ⟨_, toJson?_eq_error.2 ⟨_, hresult, hjson⟩, rfl⟩

/-- A report tells whether its document passes. -/
theorem ReportsOn.valid_eq {files : Files} {schema : Schema} {root path : String}
    {report : DocumentReport} (h : ReportsOn files schema root path report) :
    report.valid = passes files schema path := by
  obtain ⟨hload, -⟩ := h
  rw [passes, hload]

/-! ## All documents -/

/-- The fault of a check, if there is one: that of the schema, or else of the first document that
cannot be reported on. -/
inductive CheckFails (files : Files) (job : CheckJob) : JobFault → Prop
  | schema {fault : JobFault} (h : SchemaFails files job.schema fault) : CheckFails files job fault
  | document {schema : Schema} {before after : List String} {path : String} {fault : JobFault}
    (hschema : IsSchema files job.schema schema) (hpaths : job.documents = before ++ path :: after)
    (hbefore : ∀ earlier ∈ before, ∀ other, ¬ ReportFails files schema earlier other)
    (h : ReportFails files schema path fault) : CheckFails files job fault

/-- A check fails with the first fault. -/
theorem checkFiles_eq_error {files : Files} {job : CheckJob} {fault : JobFault} :
    checkFiles files job = .error fault ↔ CheckFails files job fault := by
  rw [checkFiles, bind_eq_error, loadSchema_eq_error]
  constructor
  · rintro (h | ⟨schema, hschema, h⟩)
    · exact .schema h
    · obtain h | ⟨_, -, h⟩ := bind_eq_error.1 h
      · obtain ⟨before, path, after, hpaths, hbefore, h⟩ := mapM_eq_error.1 h
        exact .document (loadSchema_eq_ok.1 hschema) hpaths
          (fun earlier hearlier other hfails =>
            hbefore earlier hearlier other (checkFile_eq_error.2 hfails))
          (checkFile_eq_error.1 h)
      · cases h
  · rintro (h | ⟨hschema, hpaths, hbefore, h⟩)
    · exact .inl h
    · refine .inr ⟨_, loadSchema_eq_ok.2 hschema, bind_eq_error.2 (.inl ?_)⟩
      refine mapM_eq_error.2 ⟨_, _, _, hpaths, fun earlier hearlier other hfails => ?_,
        checkFile_eq_error.2 h⟩
      exact hbefore earlier hearlier other (checkFile_eq_error.1 hfails)

/-- A check that does not fail reports on all documents in their order. -/
theorem checkFiles_eq_ok {files : Files} {job : CheckJob} {result : JobResult} :
    checkFiles files job = .ok result ↔ ∃ schema reports, IsSchema files job.schema schema ∧
      List.Forall₂ (ReportsOn files schema (job.root.getD Schema.rootLabel)) job.documents
        reports ∧
      result = ⟨if reports.all (·.valid) then 0 else 1, renderReports job.format reports⟩ := by
  rw [checkFiles, bind_eq_ok]
  refine exists_congr fun schema => ?_
  rw [loadSchema_eq_ok, exists_and_left, bind_eq_ok]
  refine and_congr_right fun _ => exists_congr fun reports => ?_
  rw [mapM_eq_ok]
  simp only [checkFile_eq_ok]
  exact and_congr_right fun _ =>
    ⟨fun h => (Except.ok.inj h).symm, fun h => congrArg Except.ok h.symm⟩

/-- All reports tell that their documents pass if all documents do. -/
theorem all_valid {files : Files} {schema : Schema} {root : String} {paths : List String}
    {reports : List DocumentReport} (h : List.Forall₂ (ReportsOn files schema root) paths reports) :
    reports.all (·.valid) = paths.all (passes files schema) :=
  (forall₂_all_eq h fun _ _ hreport => hreport.valid_eq.symm).symm

/-- As many reports tell that their documents pass as there are documents that do. -/
theorem length_filter_valid {files : Files} {schema : Schema} {root : String} {paths : List String}
    {reports : List DocumentReport} (h : List.Forall₂ (ReportsOn files schema root) paths reports) :
    (reports.filter (·.valid)).length = paths.countP (passes files schema) := by
  have hsame : List.Forall₂ (ReportsOn files schema root) (paths.filter (passes files schema))
      (reports.filter (·.valid)) :=
    List.rel_filter (fun _ _ hreport => Bool.eq_iff_iff.1 hreport.valid_eq.symm) h
  rw [List.countP_eq_length_filter, hsame.length_eq]

/-- The fault of a check depends neither on the format nor on the label of the roots. -/
theorem CheckFails.congr {files : Files} {job : CheckJob} {fault : JobFault}
    (h : CheckFails files job fault) (format : ReportFormat) (root : Option String) :
    CheckFails files { job with format, root } fault := by
  cases h with
  | schema h => exact .schema h
  | document hschema hpaths hbefore h => exact .document hschema hpaths hbefore h

/-- A path leads to one schema at most. -/
theorem IsSchema.unique {files : Files} {path : String} {schema other : Schema}
    (h : IsSchema files path schema) (hother : IsSchema files path other) : schema = other := by
  have hschema := loadSchema_eq_ok.2 h
  rw [loadSchema_eq_ok.2 hother] at hschema
  exact (Except.ok.inj hschema).symm

/-- The code of a check that does not fail tells whether all documents pass. -/
theorem code_eq_of_checkFiles {files : Files} {job : CheckJob} {result : JobResult}
    (h : checkFiles files job = .ok result) {schema : Schema}
    (hschema : IsSchema files job.schema schema) :
    result.code = if job.documents.all (passes files schema) then 0 else 1 := by
  obtain ⟨other, reports, hother, hreports, rfl⟩ := checkFiles_eq_ok.1 h
  obtain rfl := hschema.unique hother
  rw [← all_valid hreports]

/-- A check has the same code in each format and under each label, and fails in all of them if it
does in one. -/
theorem map_code_checkFiles (files : Files) (job : CheckJob) (format : ReportFormat)
    (root : Option String) :
    (checkFiles files { job with format, root }).map JobResult.code =
      (checkFiles files job).map JobResult.code := by
  cases h : checkFiles files job with
  | error fault =>
    have hfault := (checkFiles_eq_error.1 h).congr format root
    rw [checkFiles_eq_error.2 hfault]
  | ok result =>
    cases h' : checkFiles files { job with format, root } with
    | error fault =>
      -- The fault would be one of the check itself.
      have hfault := (checkFiles_eq_error.1 h').congr job.format job.root
      rw [checkFiles_eq_error.2 hfault] at h
      cases h
    | ok result' =>
      obtain ⟨schema, -, hschema, -⟩ := checkFiles_eq_ok.1 h
      have hcode := code_eq_of_checkFiles h hschema
      have hcode' := code_eq_of_checkFiles h' hschema
      exact congrArg Except.ok (hcode'.trans hcode.symm)

/-- Jobs with the same code or fault have the same exit code. -/
theorem code_ofJob_congr {x y : Except JobFault JobResult}
    (h : x.map JobResult.code = y.map JobResult.code) :
    (Run.ofJob x).code = (Run.ofJob y).code := by
  cases x with
  | error fault =>
    cases y with
    | error other => rfl
    | ok result => cases h
  | ok result =>
    cases y with
    | error fault => cases h
    | ok other => exact Except.ok.inj h

/-- Arguments that ask for a check run it. -/
theorem run_eq_of_check {files : Files} {arguments : List String} {job : CheckJob}
    (h : Command.parse? arguments = some (.check job)) :
    run files arguments = .ofJob (checkFiles files job) := by
  rw [run, h]

/-- A check fails with the first fault, that of the schema or else of the first document that cannot
be reported on, and prints nothing. Otherwise it reports on all documents in their order, and has
the code zero exactly if all pass. In text a report is the line of its verdict with its messages
below, and the last line tells how many documents pass. In JSON there is one array with an object
for each report. Neither the fault nor the code depends on the format or on the label of the
roots. -/
theorem checkFiles_all_or_nothing (files : Files) (job : CheckJob) :
    (∀ fault, checkFiles files job = .error fault ↔ CheckFails files job fault) ∧
    (∀ result, checkFiles files job = .ok result ↔ ∃ schema reports,
      IsSchema files job.schema schema ∧
      List.Forall₂ (ReportsOn files schema (job.root.getD Schema.rootLabel)) job.documents
        reports ∧
      result = ⟨if job.documents.all (passes files schema) then 0 else 1,
        match job.format with
        | .text => String.join (reports.map fun r =>
              (if r.valid then "PASS: " else "FAIL: ") ++ r.file ++ String.join
                (r.messages.toList.map fun m => "\n  " ++ (m.path ++ ": " ++ m.error)) ++ "\n") ++
            "Documents: " ++ toString (job.documents.countP (passes files schema)) ++ "/" ++
            toString job.documents.length ++ " passed\n"
        | .json => (Json.array (reports.map fun r => .object
              [("file", .string r.file), ("valid", .bool r.valid),
                ("result", r.result.getD .null), ("validation", r.validation.toJson),
                ("messages", .array (r.messages.toList.map fun m =>
                  .object [("path", .string m.path), ("err", .string m.error)]))])).pretty ++
            "\n"⟩) ∧
    (∀ (format : ReportFormat) (root : Option String),
      (checkFiles files { job with format, root }).map JobResult.code =
        (checkFiles files job).map JobResult.code) ∧
    ∀ arguments, Command.parse? arguments = some (.check job) →
      (∀ fault, checkFiles files job = .error fault →
        run files arguments = ⟨2, "", some (Text.terminalText fault.message)⟩) ∧
      (∀ result, checkFiles files job = .ok result →
        run files arguments = ⟨result.code, result.output, none⟩) ∧
      ∀ (format : ReportFormat) (root : Option String) (others : List String),
        Command.parse? others = some (.check { job with format, root }) →
          (run files others).code = (run files arguments).code := by
  refine ⟨fun _ => checkFiles_eq_error, fun result => ?_, map_code_checkFiles files job,
    fun arguments hparse => ?_⟩
  · rw [checkFiles_eq_ok]
    refine exists_congr fun schema => exists_congr fun reports => and_congr_right fun _ =>
      and_congr_right fun hreports => ?_
    rw [all_valid hreports, ← length_filter_valid hreports, hreports.length_eq]
    rfl
  · have hrun : run files arguments = .ofJob (checkFiles files job) := run_eq_of_check hparse
    refine ⟨fun fault h => ?_, fun result h => ?_, fun format root others hothers => ?_⟩
    · rw [hrun, h]
      rfl
    · rw [hrun, h]
      rfl
    · rw [hrun, run_eq_of_check hothers]
      exact code_ofJob_congr (map_code_checkFiles files job format root)

/-! ## A number and a word -/

/-- Work comes to the value that is made of an answer if what it comes to is read as this answer,
and only that value is read so. -/
theorem eq_ok_of_reading {ε α β : Type} {x : Except ε α} {reading : α → Option β} {made : β → α}
    (hmade : ∀ a b, reading a = some b → a = made b) {b : β}
    (h : x.toOption.bind reading = some b) : x = .ok (made b) := by
  cases x with
  | error fault => cases h
  | ok a => exact congrArg Except.ok (hmade a b h)

/-- A file whose text both readers read as the same holds this, whatever its name. -/
theorem loadFile_eq_ok {α : Type} {json yaml : String → Except ReadFault α} {files : Files}
    {path text : String} {a : α} (hfile : files path = .ok text) (hjson : json text = .ok a)
    (hyaml : yaml text = .ok a) : loadFile json yaml files path = .ok a := by
  rw [loadFile, bind_eq_ok]
  refine ⟨text, mapError_eq_ok.2 hfile, mapError_eq_ok.2 ?_⟩
  rw [hjson, hyaml, ite_self]

/-- A schema of numbers, a number and a word. Their texts mean the same in YAML and in JSON. -/
def countFiles : Files
  | "count" => .ok "\x7b\"type\": \"number\"\x7d"
  | "one" => .ok "1"
  | "word" => .ok "\"one\""
  | _ => .error .notFound

/-- The first document is a number. -/
theorem load_one : Value.load countFiles "one" = .ok (.number (.ofInt 1)) := by
  have hmade (value : Value) (d : Double) (h : value.number? = some d) : value = .number d := by
    cases value <;> cases h
    rfl
  exact loadFile_eq_ok rfl (eq_ok_of_reading hmade (by decide +kernel))
    (eq_ok_of_reading hmade (by decide +kernel))

/-- The second document is a text. -/
theorem load_word : Value.load countFiles "word" = .ok (.string "one") := by
  have hmade (value : Value) (s : String) (h : value.string? = some s) : value = .string s := by
    cases value <;> cases h
    rfl
  exact loadFile_eq_ok rfl (eq_ok_of_reading hmade (by decide +kernel))
    (eq_ok_of_reading hmade (by decide +kernel))

/-- The type that a document names, if it does, with its modifiers. -/
def Document.primitive? : Document → Option (Primitive × Modifiers)
  | .primitive p m => some (p, m)
  | _ => none

/-- The schema document is that of numbers. -/
theorem load_count : Document.load countFiles "count" = .ok (.primitive .number .none) := by
  have hmade (document : Document) (x : Primitive × Modifiers)
      (h : document.primitive? = some x) : document = .primitive x.1 x.2 := by
    cases document <;> cases h
    rfl
  exact loadFile_eq_ok rfl (eq_ok_of_reading (b := (.number, .none)) hmade (by decide +kernel))
    (eq_ok_of_reading (b := (.number, .none)) hmade (by decide +kernel))

/-- What is checked of them, with one more that is missing or without it. -/
def countJob (format : ReportFormat) (more : List String) : CheckJob :=
  ⟨"count", "one" :: "word" :: more, format, none⟩

/-- What is printed of the first two in text. -/
def countText : String :=
  "PASS: one\nFAIL: word\n  root: \"one\" is not a number.\nDocuments: 1/2 passed\n"

/-- What is printed of them in JSON. -/
def countJson : String :=
  "[\n  \x7b\n    \"file\": \"one\",\n    \"valid\": true,\n    \"result\": 1,\n" ++
    "    \"validation\": null,\n    \"messages\": []\n  \x7d,\n" ++
    "  \x7b\n    \"file\": \"word\",\n    \"valid\": false,\n    \"result\": null,\n" ++
    "    \"validation\": \"\\\"one\\\" is not a number.\",\n    \"messages\": [\n" ++
    "      \x7b\n        \"path\": \"root\",\n" ++
    "        \"err\": \"\\\"one\\\" is not a number.\"\n      \x7d\n    ]\n  \x7d\n]\n"

/-- The number passes and the word does not, and more is not told of them in either format. Nothing
is told when the third document is missing. -/
theorem checkFiles_all_or_nothing_counts :
    Command.parse? ["check", "--schema", "count", "one", "word"] =
        some (.check (countJob .text [])) ∧
      run countFiles ["check", "--schema", "count", "one", "word"] = ⟨1, countText, none⟩ ∧
      Command.parse? ["check", "--schema", "count", "--format", "json", "one", "word"] =
        some (.check (countJob .json [])) ∧
      run countFiles ["check", "--schema", "count", "--format", "json", "one", "word"] =
        ⟨1, countJson, none⟩ ∧
      Command.parse? ["check", "--schema", "count", "one", "word", "two"] =
        some (.check (countJob .text ["two"])) ∧
      ∃ failure, run countFiles ["check", "--schema", "count", "one", "word", "two"] =
        ⟨2, "", some failure⟩ := by
  have hparse : Command.parse? ["check", "--schema", "count", "one", "word"] =
      some (.check (countJob .text [])) := by decide +kernel
  have hparseJson : Command.parse? ["check", "--schema", "count", "--format", "json", "one",
      "word"] = some (.check (countJob .json [])) := by decide +kernel
  have hparseMore : Command.parse? ["check", "--schema", "count", "one", "word", "two"] =
      some (.check (countJob .text ["two"])) := by decide +kernel
  have hchecks : (checkFiles countFiles (countJob .text [])).toOption = some ⟨1, countText⟩ ∧
      (checkFiles countFiles (countJob .json [])).toOption = some ⟨1, countJson⟩ ∧
      (checkFiles countFiles (countJob .text ["two"])).toOption = none := by
    have hmissing : Value.load countFiles "two" = .error (.file .notFound) := rfl
    unfold countJob
    simp only [checkFiles, loadSchema, List.mapM_cons, List.mapM_nil, checkFile, load_count,
      load_one, load_word, hmissing]
    decide +kernel
  have hrun (arguments : List String) (job : CheckJob) (result : JobResult)
      (hparse : Command.parse? arguments = some (.check job))
      (h : (checkFiles countFiles job).toOption = some result) :
      run countFiles arguments = ⟨result.code, result.output, none⟩ := by
    obtain ⟨-, -, -, hruns⟩ := checkFiles_all_or_nothing countFiles job
    cases hcheck : checkFiles countFiles job with
    | error fault =>
      rw [hcheck] at h
      cases h
    | ok other =>
      rw [hcheck] at h
      obtain rfl := Option.some.inj h
      exact (hruns arguments hparse).2.1 _ hcheck
  obtain ⟨htext, hjson, hfault⟩ := hchecks
  refine ⟨hparse, hrun _ _ _ hparse htext, hparseJson, hrun _ _ _ hparseJson hjson, hparseMore, ?_⟩
  obtain ⟨-, -, -, hruns⟩ := checkFiles_all_or_nothing countFiles (countJob .text ["two"])
  cases h : checkFiles countFiles (countJob .text ["two"]) with
  | error fault => exact ⟨_, (hruns _ hparseMore).1 fault h⟩
  | ok result =>
    rw [h] at hfault
    cases hfault

end Conform

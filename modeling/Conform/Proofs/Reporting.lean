import Conform.Proofs.Build
import Conform.Proofs.Checking
import Conform.Proofs.Lines

/-!
# The lines of a report

A report is meant to have one line for each message, and a report on a document one more in front of
them for the verdict. `lines_of_reports` says what lines there are: those of the messages, of which
each has one more than it has line breaks. So the report is as it is meant to be exactly if no
message has a line break in its path or in its error.

Messages have the names and the texts of the schema and of the document in them as they are. Where
none of these has a line break and no parser adds one, no message has one
(`Schema.oneLine_messages`, by induction along the walk), and the builtin parsers add none
(`Registry.keepsLines_builtins`). But a text of the document that is quoted with a line break in it
adds a line to the report, and in the report on the document this line is not even indented
(`brokenText_adds_line`).
-/

namespace Conform

open Text

/-! ## Errors -/

/-- The error of a value without line breaks has none. -/
def Parser.KeepsLines (p : Parser) : Prop :=
  ∀ input error, input.OneLine → p.parse input = .error error → OneLine error

/-- The builtin parsers put no line breaks into their errors. -/
theorem Registry.keepsLines_builtins {name : String} {p : Parser}
    (hp : builtins.get? name = some p) : p.KeepsLines := by
  intro input error hinput h
  have htexts : ∀ text ∈ ["an integer.", "a string.", "a numeric string."], OneLine text := by
    decide
  rcases error_of_builtins hp h with rfl | ⟨expected, hexpected, rfl⟩
  · decide
  · have hquoted : OneLine ("\"" ++ input.toText) := OneLine.append (by decide) hinput.toText
    exact (hquoted.append (by decide)).append (htexts expected hexpected)

/-- The error of a check has no line break if none is in the value, the literals and the errors of a
parser. -/
theorem LeafCheck.oneLine_error {check : LeafCheck} {input : Value} {error : String}
    (hliterals : ∀ literals, check = .options literals → ∀ l ∈ literals, OneLine l.toText)
    (hparser : ∀ p, check = .parser p → p.KeepsLines) (hinput : input.OneLine)
    (h : check.check input = .error error) : OneLine error := by
  have hquoted : OneLine ("\"" ++ input.toText) := OneLine.append (by decide) hinput.toText
  cases check with
  | primitive p =>
    rw [LeafCheck.check] at h
    split at h
    · cases h
    · obtain rfl := Except.error.inj h
      have hname : OneLine p.name := by cases p <;> decide
      exact ((hquoted.append (by decide)).append hname).append (by decide)
  | options literals =>
    rw [LeafCheck.check] at h
    split at h
    · cases h
    · obtain rfl := Except.error.inj h
      have hallowed : OneLine (", ".intercalate (literals.map Literal.toText)) :=
        oneLine_intercalate (by decide) (List.forall_mem_map.2 (hliterals literals rfl))
      exact ((hquoted.append (by decide)).append hallowed).append (by decide)
  | parser p => exact hparser p rfl input error hinput h

/-- A message has no line break exactly if its path and its error have none. -/
theorem Message.oneLine_line {m : Message} : OneLine m.line ↔ OneLine m.path ∧ OneLine m.error := by
  have hcolon : Lacks '\n' ": " := by decide
  unfold OneLine
  rw [Message.line, lacks_append, lacks_append, and_iff_left hcolon]

/-- The error of the verdict, if it is that of a failed check, has no line break. -/
def Verdict.FailsOnOneLine (v : Verdict) : Prop := ∀ error, v = fail error → OneLine error

/-- A check that has passed has no error. -/
theorem Verdict.failsOnOneLine_pass (value : Value) : (pass value).FailsOnOneLine := by
  intro error h
  cases h

/-- The error of a failed check is all that there is to its verdict. -/
theorem Verdict.failsOnOneLine_fail {error : String} (h : OneLine error) :
    (fail error).FailsOnOneLine := by
  intro other heq
  cases heq
  exact h

/-- The verdict on null and on absence has no line break. -/
theorem Verdict.failsOnOneLine_ofModifier (accepted : Bool) {input : Value}
    (hinput : input.OneLine) : (ofModifier accepted input).FailsOnOneLine := by
  unfold ofModifier
  split
  · exact failsOnOneLine_pass input
  · exact failsOnOneLine_fail (hinput.toText.append (by decide))

/-- The verdict on a value of the wrong shape has no line break. -/
theorem Verdict.failsOnOneLine_wrongShape (input : Value) {shape : String}
    (hshape : OneLine shape) : (wrongShape input shape).FailsOnOneLine := by
  have htype : OneLine input.typeName := by
    cases input <;>
      · rw [Value.typeName]
        decide
  have hgiven : OneLine ("Value of type \"" ++ input.typeName) := OneLine.append (by decide) htype
  exact failsOnOneLine_fail (((hgiven.append (by decide)).append hshape).append (by decide))

/-- The verdict of a check has no line break if its error has none. -/
theorem Verdict.failsOnOneLine_ofCheck {result : Except String Value}
    (h : ∀ error, result = .error error → OneLine error) : (ofCheck result).FailsOnOneLine := by
  cases result with
  | ok value => exact failsOnOneLine_pass value
  | error error => exact failsOnOneLine_fail (h error rfl)

/-- The verdict of a union has no line break. -/
theorem Verdict.failsOnOneLine_ofMembers (members : List Verdict) :
    (ofMembers members).FailsOnOneLine := by
  unfold ofMembers
  split
  · exact failsOnOneLine_pass _
  · exact failsOnOneLine_fail (by decide)

/-- A plain verdict without line breaks leaves no message with one. -/
theorem Verdict.FailsOnOneLine.ownMessages {v : Verdict} (h : v.FailsOnOneLine)
    (hplain : v.IsPlain) {path : String} (hpath : OneLine path) :
    ∀ m ∈ v.ownMessages path, OneLine m.line := by
  rcases hplain with ⟨value, rfl⟩ | ⟨error, rfl⟩
  · exact List.forall_mem_nil _
  · exact List.forall_mem_singleton.2 (Message.oneLine_line.2 ⟨hpath, h error rfl⟩)

/-! ## Walks -/

namespace Schema

/-- The texts that a node may put into a path or an error: names and the texts of literals. -/
def ownTexts : Schema → List String
  | .leaf (.options literals) _ => literals.map Literal.toText
  | schema => schema.ownNames

/-- No name and no text of a literal in the schema has a line break. -/
def OneLine (schema : Schema) : Prop :=
  schema.Every fun node => ∀ text ∈ node.ownTexts, Text.OneLine text

instance (schema : Schema) : Decidable schema.OneLine :=
  inferInstanceAs (Decidable (schema.Every _))

/-- No parser of a schema that is built with the builtin parsers puts a line break into an error. -/
theorem keepsLines_build {document : Document} {schema : Schema}
    (h : document.build .builtins = .ok schema) : schema.EveryParser Parser.KeepsLines :=
  Document.everyParser_build h fun _ _ _ hp => Registry.keepsLines_builtins hp

/-- A node is settled with no line break if the schema and the value have none. -/
theorem Settled.failsOnOneLine {schema : Schema} {input : Value} {v : Verdict}
    (h : Settled schema input v) (hschema : schema.OneLine)
    (hparsers : schema.EveryParser Parser.KeepsLines) (hinput : input.OneLine) :
    v.FailsOnOneLine := by
  cases h with
  | null | undefined => exact Verdict.failsOnOneLine_ofModifier _ hinput
  | @leaf check m _ present =>
    refine Verdict.failsOnOneLine_ofCheck fun error h => ?_
    refine LeafCheck.oneLine_error ?_ ?_ hinput h
    · rintro literals rfl
      exact List.forall_mem_map.1 hschema.here
    · rintro p rfl
      exact hparsers.here p rfl
  | @length schemas m items shape =>
    have hgiven : Text.OneLine ("Tuple of length \"" ++ toString items.length) :=
      Text.OneLine.append (by decide) (oneLine_toString _)
    exact Verdict.failsOnOneLine_fail
      (((hgiven.append (by decide)).append (oneLine_toString schemas.length)).append (by decide))
  | array | tuple | object | record =>
    exact Verdict.failsOnOneLine_wrongShape input (by decide)

/-- The verdict on a key of a record has no line break if the record and the key have none. -/
theorem failsOnOneLine_key {keys : KeyCheck} {values : Schema} {m : Modifiers}
    (hschema : (record keys values m).OneLine) {key : String} (hkey : Text.OneLine key) :
    (keys.verdict key).FailsOnOneLine := by
  have hinput : (Value.string key).OneLine :=
    .intro (List.forall_mem_singleton.2 hkey) fun c hc => absurd hc List.not_mem_nil
  refine Verdict.failsOnOneLine_ofCheck fun error h => ?_
  refine LeafCheck.oneLine_error ?_ ?_ hinput h
  · intro literals hliterals
    cases keys with
    | primitive p => cases hliterals
    | options literals =>
      cases hliterals
      exact List.forall_mem_map.1 hschema.here
  · intro p hp
    cases keys <;> cases hp

/-- A walk under a schema without line breaks on a value without line breaks leaves no message with
a line break. -/
theorem oneLine_messages (schema : Schema) (input : Value) (hschema : schema.OneLine)
    (hparsers : schema.EveryParser Parser.KeepsLines) (hinput : input.OneLine) {path : String}
    (hpath : Text.OneLine path) :
    ∀ m ∈ schema.messages input path, Text.OneLine m.line := by
  -- A part of the value is walked under a longer path, so the induction is for all paths at once.
  induction schema, input using walk_induct generalizing path with
  | settled h =>
    rw [messages_settled h]
    exact (h.failsOnOneLine hschema hparsers hinput).ownMessages h.isPlain hpath
  | @union first second third m input present ih =>
    rw [messages_union first second third m present]
    intro message hmessage
    rcases List.mem_append.1 hmessage with hmember | hown
    · obtain ⟨x, hx, hmem⟩ := List.mem_flatMap.1 hmember
      have hs := List.fst_mem_of_mem_zipIdx hx
      have hpath' : Text.OneLine (memberPath path x.2) :=
        Text.Lacks.memberPath hpath (by decide) (by decide) x.2
      exact ih x.1 hs (hschema.child hs) (hparsers.child hs) hinput hpath' message hmem
    · rw [verdict_union first second third m present] at hown
      exact (Verdict.failsOnOneLine_ofMembers _).ownMessages (Verdict.isPlain_ofMembers _) hpath
        message hown
  | @list schema input parts h ih =>
    rw [messages_list h]
    intro message hmessage
    obtain ⟨x, hx, hmem⟩ := List.mem_flatMap.1 hmessage
    have hpart := List.fst_mem_of_mem_zipIdx hx
    obtain ⟨hs, hi⟩ := mem_of_listParts h hpart
    have hpath' : Text.OneLine (itemPath path x.2) :=
      Text.Lacks.itemPath hpath (by decide) (by decide) x.2
    exact ih x.1 hpart (hschema.child hs) (hparsers.child hs) (hinput.child hi) hpath' message hmem
  | @object properties m entries ih =>
    rw [messages_object]
    intro message hmessage
    obtain ⟨p, hp, hmem⟩ := List.mem_flatMap.1 hmessage
    have hname : Text.OneLine p.1 := hschema.here p.1 (List.mem_map_of_mem hp)
    have hchild := mem_children_object hp m
    exact ih p hp (hschema.child hchild) (hparsers.child hchild) (hinput.get p.1)
      (Text.Lacks.propertyPath hpath hname (by decide)) message hmem
  | @record keys values m entries ih =>
    rw [messages_record]
    intro message hmessage
    rcases List.mem_append.1 hmessage with hentry | hmissing
    · obtain ⟨e, he, hmem⟩ := List.mem_flatMap.1 hentry
      have hkey : Text.OneLine e.1 := hinput.here e.1 (List.mem_map_of_mem he)
      have hpath' : Text.OneLine (propertyPath path e.1) :=
        Text.Lacks.propertyPath hpath hkey (by decide)
      rcases List.mem_append.1 hmem with hown | hvalue
      · exact (failsOnOneLine_key hschema hkey).ownMessages (keys.isPlain_verdict e.1) hpath'
          message hown
      · have hchild := mem_children_record keys values m
        exact ih e he (hschema.child hchild) (hparsers.child hchild)
          (hinput.child (List.mem_map_of_mem he)) hpath' message hvalue
    · obtain ⟨key, hkey, rfl⟩ := List.mem_map.1 hmissing
      have hname : Text.OneLine key := hschema.here key (mem_ownNames_of_mem_missingIn m hkey)
      have herror : Text.OneLine missingProperty := by decide
      exact Message.oneLine_line.2 ⟨Text.Lacks.propertyPath hpath hname (by decide), herror⟩

end Schema

/-! ## Reports -/

/-- The line of a message is not empty. -/
theorem Message.line_ne_empty (m : Message) : m.line ≠ "" := by
  intro h
  rw [Message.line, String.append_eq_empty_iff, String.append_eq_empty_iff] at h
  exact absurd h.1.2 (by decide)

namespace Evaluation

/-- The report has one line for each message, and this is the line of the message. -/
def LineFaithful (e : Evaluation) : Prop := lines e.report = e.messages.toList.map Message.line

/-- The lines of a report are the pieces of its messages. -/
theorem lines_report (e : Evaluation) :
    lines e.report = (e.messages.toList.map Message.line).flatMap pieces := by
  unfold report Log.report
  cases e.messages.toList with
  | nil => rfl
  | cons m rest =>
    have hne : "\n".intercalate ((m :: rest).map Message.line) ≠ "" := by
      rw [List.map_cons]
      cases rest.map Message.line with
      | nil => simpa using m.line_ne_empty
      | cons text texts =>
        rw [String.intercalate_cons_cons, Ne, String.append_eq_empty_iff,
          String.append_eq_empty_iff]
        exact fun h => m.line_ne_empty h.1.1
    rw [lines_eq_pieces hne, pieces_intercalate (by simp)]

/-- A report is faithful exactly if no message has a line break. -/
theorem lineFaithful_iff (e : Evaluation) :
    e.LineFaithful ↔ ∀ m ∈ e.messages.toList, OneLine m.line := by
  rw [LineFaithful, lines_report, flatMap_pieces_eq_iff, List.forall_mem_map]

end Evaluation

namespace DocumentReport

/-- The line of the verdict. -/
def header (r : DocumentReport) : String := (if r.valid then "PASS: " else "FAIL: ") ++ r.file

/-- The report has the line of the verdict and behind it one line for each message, which is the
line of the message behind an indentation. -/
def LineFaithful (r : DocumentReport) : Prop :=
  lines r.render = r.header :: r.messages.toList.map fun m => "  " ++ m.line

/-- The lines of a report on a document are the pieces of its header and of its messages behind an
indentation. -/
theorem lines_render (r : DocumentReport) :
    lines r.render =
      (r.header :: r.messages.toList.map fun m => "  " ++ m.line).flatMap pieces := by
  have htexts : (r.messages.toList.map fun m => "\n  " ++ m.line) =
      (r.messages.toList.map fun m => "  " ++ m.line).map ("\n" ++ ·) := by
    rw [List.map_map]
    refine List.map_congr_left fun m _ => ?_
    rw [Function.comp_apply, ← String.append_assoc]
    rfl
  have hne : r.render ≠ "" := by
    unfold render
    rw [Ne, String.append_eq_empty_iff, String.append_eq_empty_iff]
    rintro ⟨⟨hstatus, -⟩, -⟩
    split at hstatus <;> exact absurd hstatus (by decide)
  rw [lines_eq_pieces hne, render, htexts, ← header, pieces_append_join, List.flatMap_cons]

/-- The header of a file whose name has no line break has none. -/
theorem oneLine_header {r : DocumentReport} (h : OneLine r.file) : OneLine r.header :=
  OneLine.append (by split <;> decide) h

/-- On a file whose name has no line break a report is faithful exactly if no message has one. -/
theorem lineFaithful_iff {r : DocumentReport} (h : OneLine r.file) :
    r.LineFaithful ↔ ∀ m ∈ r.messages.toList, OneLine m.line := by
  have hindent (m : Message) : OneLine ("  " ++ m.line) ↔ OneLine m.line :=
    lacks_append.trans (and_iff_right (by decide))
  rw [LineFaithful, lines_render, flatMap_pieces_eq_iff, List.forall_mem_cons,
    and_iff_right (oneLine_header h), List.forall_mem_map]
  simp only [hindent]

/-- Of the pieces of a message only the first is indented in a report on a document. -/
theorem lines_render_eq_cons {r : DocumentReport} (h : OneLine r.file) :
    lines r.render = r.header :: r.messages.toList.flatMap fun m =>
      (pieces m.line).modifyHead ("  " ++ ·) := by
  have hindent : OneLine "  " := by decide
  rw [lines_render, List.flatMap_cons, (oneLine_header h).pieces_eq, List.flatMap_map]
  simp only [pieces_indent hindent, List.singleton_append]

end DocumentReport

/-- Of an evaluation there are as many lines in the report as there are pieces of messages, which is
one for each message exactly if no message has a line break. A report on the value has the line of
the verdict in front of these, and only the first piece of a message is indented there. No message
has a line break where neither the schema nor the value has one, if its parsers add none, and those
of a schema that is built with the builtin parsers do not. -/
theorem lines_of_reports (schema : Schema) (input : Value) (root file : String)
    (hroot : OneLine root) (hfile : OneLine file) :
    lines (schema.evaluateAt root input).report =
        ((schema.evaluateAt root input).messages.toList.flatMap fun m => pieces m.line) ∧
    ((schema.evaluateAt root input).LineFaithful ↔
      ∀ m ∈ (schema.evaluateAt root input).messages.toList, OneLine m.line) ∧
    (∀ report, checkValue schema file input root = .ok report →
      report.valid = (schema.evaluateAt root input).isValid ∧ report.file = file ∧
      report.messages = (schema.evaluateAt root input).messages ∧
      lines report.render = report.header :: (report.messages.toList.flatMap fun m =>
        (pieces m.line).modifyHead ("  " ++ ·)) ∧
      (report.LineFaithful ↔ ∀ m ∈ report.messages.toList, OneLine m.line)) ∧
    (schema.OneLine → schema.EveryParser Parser.KeepsLines → input.OneLine →
      ∀ m ∈ (schema.evaluateAt root input).messages.toList, OneLine m.line) ∧
    (∀ document : Document, document.build .builtins = .ok schema →
      schema.EveryParser Parser.KeepsLines) := by
  refine ⟨?_, Evaluation.lineFaithful_iff _, fun report hreport => ?_,
    fun hschema hparsers hinput => ?_, fun document hbuild => Schema.keepsLines_build hbuild⟩
  · rw [Evaluation.lines_report, List.flatMap_map]
  · obtain ⟨result, -, rfl⟩ := checkValue_eq_ok.1 hreport
    have hvalid : (schema.evaluateAt root input).isValid = (schema.evaluate input).isValid := by
      unfold Schema.evaluate Evaluation.isValid
      rw [Schema.evaluateAt_eq, Schema.evaluateAt_eq]
    exact ⟨hvalid.symm, rfl, rfl, DocumentReport.lines_render_eq_cons hfile,
      DocumentReport.lineFaithful_iff hfile⟩
  · exact schema.oneLine_messages input hschema hparsers hinput hroot

/-- A record of one option is given another key with a text where a number is asked for: there are
three messages, a line for each of them, and one line for the verdict. -/
theorem lines_of_reports_strayKey :
    OneLine "order" ∧ OneLine "order.json" ∧
      ∃ schema input, schema = Schema.recordOf (.options [.string "a"]) (.primitive .number) ∧
        input = Value.object [("b", .string "x")] ∧ schema.OneLine ∧
        schema.EveryParser Parser.KeepsLines ∧ input.OneLine ∧
        (schema.evaluateAt "order" input).LineFaithful ∧
        (schema.evaluateAt "order" input).messages.size = 3 ∧
        ∃ report, checkValue schema "order.json" input "order" = .ok report ∧
          report.LineFaithful := by
  have hroot : OneLine "order" := by decide
  have hfile : OneLine "order.json" := by decide
  have hschema : (Schema.recordOf (.options [.string "a"]) (.primitive .number)).OneLine := by
    decide
  have hfree : (Schema.recordOf (.options [.string "a"]) (.primitive .number)).ParserFree := by
    decide
  have hinput : (Value.object [("b", .string "x")]).OneLine := by
    refine .intro (by decide) fun c hc => ?_
    obtain rfl := List.mem_singleton.1 hc
    exact .intro (by decide) fun d hd => absurd hd List.not_mem_nil
  obtain ⟨-, hevaluation, hreport, honeLine, -⟩ := lines_of_reports
    (Schema.recordOf (.options [.string "a"]) (.primitive .number))
    (Value.object [("b", .string "x")]) "order" "order.json" hroot hfile
  have hmessages := honeLine hschema hfree.everyParser hinput
  refine ⟨hroot, hfile, _, _, rfl, rfl, hschema, hfree.everyParser, hinput,
    hevaluation.2 hmessages, rfl, _, rfl, ?_⟩
  obtain ⟨-, -, hsame, -, hfaithful⟩ := hreport _ rfl
  exact hfaithful.2 (hsame ▸ hmessages)

/-- A text with a line break, behind which it reads like the verdict on another file. -/
def brokenText : Value := .string "x\nPASS: b.json"

/-- What is said of this text where a number is asked for. -/
def brokenMessage : Message := ⟨"root", "\"x\nPASS: b.json\" is not a number."⟩

/-- Where a number is asked for and this text is given, there is one message and a report of two
lines. In the report on the document the second of them is not indented. -/
theorem brokenText_adds_line :
    OneLine "root" ∧ OneLine "a.json" ∧
      ¬ ((Schema.primitive .number).evaluateAt "root" brokenText).LineFaithful ∧
      ∃ report, checkValue (.primitive .number) "a.json" brokenText "root" = .ok report ∧
        ¬ report.LineFaithful ∧ report.messages.size = 1 ∧
        lines report.render =
          ["FAIL: a.json", "  root: \"x", "PASS: b.json\" is not a number."] := by
  have hroot : OneLine "root" := by decide
  have hfile : OneLine "a.json" := by decide
  have hbroken : ¬ OneLine brokenMessage.line := by decide
  have hmessages : ((Schema.primitive .number).evaluateAt "root" brokenText).messages.toList =
      [brokenMessage] := rfl
  refine ⟨hroot, hfile, ?_,
    ⟨"a.json", false, none, .leaf brokenMessage.error, #[brokenMessage]⟩, rfl, ?_, rfl, by decide⟩
  · rw [Evaluation.lineFaithful_iff, hmessages, List.forall_mem_singleton]
    exact hbroken
  · rw [DocumentReport.lineFaithful_iff, List.forall_mem_singleton]
    · exact hbroken
    · exact hfile

end Conform

import Conform.Proofs.Build
import Conform.Proofs.Checking
import Conform.Proofs.Equality
import Conform.Proofs.Interchange
import Conform.Proofs.Loading

/-!
# Results that JSON can hold

A report fails if its result has a number that JSON cannot hold. With the builtin parsers this does
not happen: what is loaded is plain, and the result of a plain value is plain. A walk puts together
parts of its input and answers of parsers, of which the builtin ones are plain
(`Registry.plainAnswers_builtins`), and what is absent in the input is not made present but left out
of the result (`plain_result`).

A plain value has a document in JSON, and what comes back from it is the value but for the signs of
zeros (`Value.Plain.equal_normal`). So of a valid value the report holds the result, and of all
checks of files none fails for want of JSON: `report_of_plain`.
-/

namespace Conform

/-! ## Plain values in JSON -/

namespace Value

/-- The numbers in a plain value are finite. -/
theorem Plain.isFinite {value : Value} (h : value.Plain) :
    ∀ d ∈ value.numbers, d.isFinite = true := by
  induction h with
  | null | bool | string => exact nofun
  | number h => exact List.forall_mem_singleton.2 h
  | array _ ih =>
    rw [numbers, itemsNumbers_eq]
    intro d hd
    obtain ⟨item, hitem, hd⟩ := List.mem_flatMap.1 hd
    exact ih item hitem d hd
  | object _ _ ih =>
    rw [numbers, entriesNumbers_eq]
    intro d hd
    obtain ⟨e, he, hd⟩ := List.mem_flatMap.1 hd
    exact ih e he d hd

/-- A plain value has a document in JSON. -/
theorem Plain.exists_toJson {value : Value} (h : value.Plain) :
    ∃ document, value.toJson = .ok document :=
  Value.exists_toJson h.isFinite

/-- The normal form of a plain value equals the value. -/
theorem Plain.equal_normal {value : Value} (h : value.Plain) : value.normal.equal value = true := by
  induction h with
  | null => rfl
  | bool b => exact beq_self_eq_true b
  | number h =>
    rw [normal]
    exact eq_unsignedZero h
  | string s => exact beq_self_eq_true s
  | array _ ih =>
    rw [normal, normalItems_eq, equal, equalItems_iff, List.forall₂_map_left_iff, List.forall₂_same]
    exact ih
  | @object entries hdistinct h ih =>
    rw [normal, normalEntries_eq, definedEntries_eq_self fun e he => (h e he).ne_undefined]
    refine equal_object (.intro ?_ (.refl entries)) hdistinct
    rw [List.forall₂_map_left_iff, List.forall₂_same]
    exact fun e he => .intro e.1 (ih e he)

end Value

/-! ## Parsers -/

/-- Whatever the parser answers is plain. -/
def Parser.PlainAnswers (p : Parser) : Prop :=
  ∀ input value, p.parse input = .ok value → value.Plain

/-- The builtin parsers answer with plain values: with texts, with whole numbers, which are finite,
and with the numbers of texts that are read only if they are finite. -/
theorem Registry.plainAnswers_builtins {name : String} {p : Parser}
    (hp : builtins.get? name = some p) : p.PlainAnswers := by
  intro input value h
  rcases parse_of_builtins hp with hparse | hparse | hparse | hparse <;> rw [hparse] at h
  · obtain ⟨d, hintegral, -, rfl⟩ := Parser.integer_eq_ok.1 h
    cases d with
    | finite negative x => exact .number rfl
    | _ => cases hintegral
  · obtain ⟨s, -, -, rfl⟩ := Parser.nonEmptyString_eq_ok.1 h
    exact .string s
  · obtain ⟨s, -, rfl⟩ := Parser.trimmedString_eq_ok.1 h
    exact .string (Text.trim s)
  · obtain ⟨s, d, hread, -, rfl⟩ := Parser.numericString_eq_ok.1 h
    exact .number (Option.filter_eq_some_iff.1 hread).2

/-! ## Results -/

namespace Schema

/-- The result of a plain value is plain, if the answers of all parsers are. -/
theorem plain_result (schema : Schema) (input : Value)
    (hparsers : schema.EveryParser Parser.PlainAnswers) (hnames : schema.NamesDistinct)
    (hinput : input.Plain) (h : schema.Accepts input) : (schema.result input).Plain := by
  refine result_of_parts Value.ofParts_plain schema input ?_ hnames hinput h
  exact hparsers.mono fun node hplain p hp input value _ => hplain p hp input value

/-- A schema of a document without repeated names makes plain results of plain values. -/
theorem plain_of_build {document : Document} {schema : Schema} (hnames : document.NamesDistinct)
    (hbuild : document.build .builtins = .ok schema) {input r : Value} (hinput : input.Plain)
    (h : (schema.evaluate input).outcome = .valid r) : r.Plain := by
  obtain ⟨haccepts, rfl⟩ := evaluate_valid.1 h
  have hparsers : schema.EveryParser Parser.PlainAnswers :=
    Document.everyParser_build hbuild fun _ _ _ hp => Registry.plainAnswers_builtins hp
  exact plain_result schema input hparsers (Document.namesDistinct_build hbuild hnames) hinput
    haccepts

end Schema

/-! ## Reports -/

/-- There is something to be said of a result if it is plain. -/
theorem exists_resultReported {outcome : Outcome} (h : ∀ r, outcome = .valid r → r.Plain) :
    ∃ result, ResultReported outcome result := by
  cases outcome with
  | invalid => exact ⟨none, .invalid⟩
  | valid r =>
    have hplain := h r rfl
    obtain ⟨json, hjson⟩ := hplain.exists_toJson
    exact ⟨some json, .written hplain.ne_undefined hjson⟩

/-- Of a plain result something is said, and of a failure nothing. -/
theorem ResultReported.isSome_iff {outcome : Outcome} {result : Option Json}
    (h : ResultReported outcome result) (hplain : ∀ r, outcome = .valid r → r.Plain) :
    result.isSome = true ↔ outcome.isValid = true := by
  cases h with
  | invalid => exact ⟨nofun, nofun⟩
  | absent => exact absurd rfl (hplain .undefined rfl).ne_undefined
  | written => exact ⟨fun _ => rfl, fun _ => rfl⟩

/-- On a value from JSON there is a report under every schema of a document. It holds a result
exactly if the value is valid, and from there comes back the result of the evaluation, but for the
signs of zeros. No check of files fails because JSON cannot hold a result. -/
theorem report_of_plain :
    (∀ (document : Document) (schema : Schema) (input : Json) (file root : String),
      document.NamesDistinct → document.build .builtins = .ok schema → input.NumbersValid →
      ∃ report, checkValue schema file (.ofJson input) root = .ok report ∧
        report.valid = (schema.evaluate (.ofJson input)).isValid ∧
        (report.result.isSome = true ↔ report.valid = true) ∧
        ∀ json, report.result = some json → ∃ result, result.Plain ∧
          (schema.evaluate (.ofJson input)).outcome = .valid result ∧
          Value.ofJson json = result.normal ∧ (Value.ofJson json).equal result = true) ∧
    ∀ (files : Files) (job : CheckJob) (file : String) (fault : NonFinite),
      checkFiles files job ≠ .error (.result file fault) := by
  refine ⟨fun document schema input file root hnames hbuild hnumbers => ?_,
    fun files job file fault h => ?_⟩
  · have hinput : (Value.ofJson input).Plain := Value.plain_ofJson input hnumbers
    have hplain (r : Value) (h : (schema.evaluate (.ofJson input)).outcome = .valid r) : r.Plain :=
      Schema.plain_of_build hnames hbuild hinput h
    obtain ⟨result, hresult⟩ := exists_resultReported hplain
    refine ⟨_, checkValue_eq_ok.2 ⟨result, hresult, rfl⟩, rfl, hresult.isSome_iff hplain, ?_⟩
    rintro json rfl
    cases houtcome : (schema.evaluate (.ofJson input)).outcome with
    | invalid =>
      rw [houtcome] at hresult
      cases hresult
    | valid r =>
      have hr : r.Plain := hplain r houtcome
      rw [houtcome] at hresult
      cases hresult with
      | written _ hjson =>
        have hback : Value.ofJson json = r.normal := Value.ofJson_eq_normal hr.valid hjson
        exact ⟨r, hr, rfl, hback, hback ▸ hr.equal_normal⟩
  · -- Such a fault could only be that of a document, and all that is loaded is plain.
    cases checkFiles_eq_error.1 h with
    | schema h => cases h
    | document hschema _ _ h =>
      obtain ⟨document, hdocument, hbuild⟩ := hschema
      cases h with
      | unwritten hload hresult hjson =>
        have hplain := Schema.plain_of_build (Document.namesDistinct_load hdocument) hbuild
          (Value.plain_load hload) hresult
        obtain ⟨json, hok⟩ := hplain.exists_toJson
        rw [hok] at hjson
        cases hjson

/-- An object with the text of a number, and with a note that may be missing. -/
def priceTag : Document :=
  .object [("price", .parser "numeric_string" .none), ("note", .primitive .string ⟨false, true⟩)]
    .none

/-- A price of nothing under a minus sign, and a count that is left out. -/
def freeOfCharge : Json :=
  .object [("price", .string " -0 "), ("count", .number (.integer 18446744073709551615))]

/-- The price is a negative zero in the result, and a zero when it comes back from JSON. -/
theorem report_of_plain_freeOfCharge :
    priceTag.NamesDistinct ∧ freeOfCharge.NumbersValid ∧
      ∃ schema, priceTag.build .builtins = .ok schema ∧
        (schema.evaluate (.ofJson freeOfCharge)).outcome =
          .valid (.object [("price", .number (.finite true .zero))]) ∧
        ∃ report json, checkValue schema "order.json" (.ofJson freeOfCharge) "order" = .ok report ∧
          report.result = some json ∧ Value.ofJson json = .object [("price", .number .zero)] := by
  have hnames : priceTag.NamesDistinct := by decide
  have hnumbers : freeOfCharge.NumbersValid := by
    refine List.forall_mem_singleton.2 ?_
    show -9223372036854775808 ≤ (18446744073709551615 : Int) ∧ _ < 18446744073709551616
    decide
  refine ⟨hnames, hnumbers, _, rfl, rfl, ?_⟩
  obtain ⟨hreport, -⟩ := report_of_plain
  obtain ⟨report, hok, hvalid, hsome, hback⟩ :=
    hreport priceTag _ freeOfCharge "order.json" "order" hnames rfl hnumbers
  obtain ⟨json, hjson⟩ := Option.isSome_iff_exists.1 (hsome.2 (hvalid.trans rfl))
  obtain ⟨result, -, houtcome, hnormal, -⟩ := hback json hjson
  obtain rfl := Outcome.valid.inj houtcome
  exact ⟨report, json, hok, hjson, hnormal⟩

end Conform

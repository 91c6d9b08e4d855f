import Conform.Report
import Conform.Text.Terminal

/-!
# The command line

The program has two commands, one for each job. `Command.parse?` reads their arguments; options may
stand anywhere among them, a value follows its option or an equals sign, and two dashes end the
options. The verbosity flags do not change what is printed.
-/

namespace Conform

/-- What the arguments ask for. -/
inductive Command where
  | version
  | check (job : CheckJob)
  | lint (job : LintJob)
  deriving DecidableEq

namespace Command

/-- The options of the commands that take a value, and those that do not. -/
inductive OptionName where
  | schema
  | format
  | root
  | render
  | listParsers
  deriving DecidableEq

/-- Whether an option takes a value. -/
def OptionName.takesValue : OptionName → Bool
  | .schema | .format | .root => true
  | .render | .listParsers => false

/-- The arguments of a command taken apart. -/
structure Arguments where
  options : List (OptionName × String)
  operands : List String

/-- The options of the check command. -/
def checkOptions : List (String × OptionName) :=
  [("schema", .schema), ("format", .format), ("root", .root)]

/-- The options of the schema command. -/
def lintOptions : List (String × OptionName) :=
  [("schema", .schema), ("render", .render), ("list-parsers", .listParsers)]

/-- Whether an argument is an option or a flag. A single dash is not. -/
def isOption (argument : String) : Bool := argument.startsWith "-" && argument ≠ "-"

/-- Whether an argument raises the verbosity. -/
def isVerbosity (argument : String) : Bool :=
  argument = "--verbose" ||
    match argument.toList with
    | '-' :: 'v' :: rest => rest.all (· = 'v')
    | _ => false

/-- The name of a long option, and the value behind an equals sign. -/
def splitOption (argument : String) : String × Option String :=
  let body := argument.toList.drop 2
  match body.dropWhile (· ≠ '=') with
  | _ :: value => (String.ofList (body.takeWhile (· ≠ '=')), some (String.ofList value))
  | [] => (String.ofList body, none)

/-- Takes the arguments of a command apart. -/
def split? (known : List (String × OptionName)) : List String → Option Arguments
  | [] => some ⟨[], []⟩
  | argument :: rest =>
    if argument = "--" then some ⟨[], rest⟩
    else if isVerbosity argument then split? known rest
    else if !isOption argument then
      (split? known rest).map fun a => { a with operands := argument :: a.operands }
    else if !argument.startsWith "--" then none
    else
      let (name, value) := splitOption argument
      match known.lookup name with
      | none => none
      | some option =>
        let add (value : String) (a : Arguments) : Arguments :=
          { a with options := (option, value) :: a.options }
        match option.takesValue, value, rest with
        | true, some value, rest => (split? known rest).map (add value)
        | true, none, value :: rest =>
          if isOption value then none else (split? known rest).map (add value)
        | true, none, [] => none
        | false, none, rest => (split? known rest).map (add "")
        | false, some _, _ => none

/-- No option is given twice. -/
def Arguments.isValid (a : Arguments) : Bool := (a.options.map Prod.fst).Nodup

/-- The value of an option. -/
def Arguments.value? (a : Arguments) (option : OptionName) : Option String :=
  a.options.lookup option

/-- The format that a value names. -/
def formatOfText? : String → Option ReportFormat
  | "text" => some .text
  | "json" => some .json
  | _ => none

/-- The check that arguments ask for. Paths are not empty, and there is one document at least. -/
def checkOf? (a : Arguments) : Option Command := do
  let schema ← a.value? .schema
  let format ← formatOfText? ((a.value? .format).getD "text")
  if schema.isEmpty ∨ a.operands.isEmpty ∨ a.operands.any (·.isEmpty) then none
  else return .check ⟨schema, a.operands, format, a.value? .root⟩

/-- The report on a schema that arguments ask for. -/
def lintOf? (a : Arguments) : Option Command :=
  let schema := a.value? .schema
  let render := (a.value? .render).isSome
  let listParsers := (a.value? .listParsers).isSome
  if !a.operands.isEmpty ∨ (render ∧ listParsers) ∨ (schema.isNone ∧ !listParsers) ∨
      schema.any (·.isEmpty) then none
  else some (.lint ⟨schema, render, listParsers⟩)

/-- Whether an argument asks for the version, verbosity flags in front of it or not. -/
def isVersion (argument : String) : Bool :=
  argument = "--version" ||
    match argument.toList with
    | '-' :: flags => (flags.dropWhile (· = 'v')).head? = some 'V'
    | _ => false

/-- The command that the arguments of the program are. -/
def parse? : List String → Option Command
  | [] => none
  | argument :: rest =>
    if isVerbosity argument then parse? rest
    else if isVersion argument then some .version
    else if argument = "check" then do
      let a ← split? checkOptions rest
      if a.isValid then checkOf? a else none
    else if argument = "schema" then do
      let a ← split? lintOptions rest
      if a.isValid then lintOf? a else none
    else none

/-- The name and number of the program. -/
def versionText : String := "shapeguard 0.1.0\n"

end Command

/-- What a run of the program comes to. -/
structure Run where
  /-- The exit code: two if the program has failed. -/
  code : Nat
  output : String
  /-- Why the program has failed, as it is logged. -/
  failure : Option String
  deriving DecidableEq

/-- A job as a run of the program. -/
def Run.ofJob : Except JobFault JobResult → Run
  | .ok result => ⟨result.code, result.output, none⟩
  | .error fault => ⟨2, "", some (Text.terminalText fault.message)⟩

/-- Runs the program. Arguments that make no sense are a failure without a text of the program. -/
def run (files : Files) (arguments : List String) : Run :=
  match Command.parse? arguments with
  | none => ⟨2, "", none⟩
  | some .version => ⟨0, Command.versionText, none⟩
  | some (.check job) => .ofJob (checkFiles files job)
  | some (.lint job) => .ofJob (lintSchema files job)

end Conform

import Conform.Document.Build
import Conform.Document.Text
import Conform.Files
import Conform.Value.Json
import Conform.Yaml.Resolve

/-!
# Loading documents

Schema documents and values from texts and files. A file is read as YAML or as JSON by its name.
-/

namespace Conform

/-- Why a text is not the document asked for. What is wrong with a schema document in YAML is told
apart from what is wrong with the YAML. -/
inductive ReadFault where
  | json (fault : Text.Located Document.TextFault)
  | yaml (fault : Yaml.Fault)
  | yamlContent (mismatch : Mismatch)

/-- Why a file is not the document asked for. -/
inductive LoadFault where
  | file (fault : FileFault)
  | text (fault : ReadFault)

/-- The wording of a fault in a JSON text, with its place. -/
def jsonFaultMessage (fault : Text.Located Document.TextFault) : String :=
  fault.cause.message ++ " at " ++ fault.position.describe

/-- The wording of a fault. -/
def ReadFault.message : ReadFault → String
  | .json fault => "json error: " ++ jsonFaultMessage fault
  | .yaml fault => "yaml error: " ++ fault.message
  | .yamlContent mismatch => "yaml error: " ++ mismatch.message

/-- The wording of a fault. -/
def LoadFault.message : LoadFault → String
  | .file fault => "cannot read file: " ++ fault.message
  | .text fault => fault.message

/-- Reads a text in JSON as a value. -/
def Value.parseJson (text : String) : Except ReadFault Value :=
  match Json.parse text with
  | .ok document => .ok (.ofJson document)
  | .error fault => .error (.json ⟨.grammar fault.cause, fault.position⟩)

/-- Reads a text in YAML as a value. -/
def Value.parseYaml (text : String) : Except ReadFault Value :=
  (Yaml.parseValue text).mapError .yaml

/-- Reads a text in JSON as a schema document. -/
def Document.ofJsonText (text : String) : Except ReadFault Document :=
  (Document.parseJson text).mapError .json

/-- Reads a text in YAML as a schema document. -/
def Document.ofYamlText (text : String) : Except ReadFault Document := do
  let markup ← (Yaml.parseMarkup text).mapError ReadFault.yaml
  (Document.decode markup).mapError .yamlContent

/-- Loads the file at a path by the reader for its kind of text. -/
def loadFile {α : Type} (json yaml : String → Except ReadFault α) (files : Files) (path : String) :
    Except LoadFault α := do
  let text ← (files path).mapError LoadFault.file
  (if isYamlPath path then yaml text else json text).mapError LoadFault.text

/-- Loads a value. -/
def Value.load : Files → String → Except LoadFault Value :=
  loadFile Value.parseJson Value.parseYaml

/-- Loads a schema document. -/
def Document.load : Files → String → Except LoadFault Document :=
  loadFile Document.ofJsonText Document.ofYamlText

end Conform

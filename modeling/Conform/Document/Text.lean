import Conform.Document.Decode
import Conform.Json.Reader

/-!
# Schema documents in JSON

The text of a document is read in full before it is decoded, so what breaks the grammar is found
first, and what is wrong with the document is told at the end of its object. Only a list is turned
down before it is read.
-/

namespace Conform

/-- What is wrong with the text of a schema document. -/
inductive Document.TextFault where
  | grammar (fault : Json.SyntaxFault)
  | content (mismatch : Mismatch)
  deriving DecidableEq

/-- The wording of a fault. -/
def Document.TextFault.message : Document.TextFault → String
  | .grammar fault => fault.message
  | .content mismatch => mismatch.message

namespace Document

/-- A stop of the reader as a fault of a schema document. -/
def grammarFault (text : List Char) (s : Json.Stop) : Text.Located TextFault :=
  let located := s.locate text
  ⟨.grammar located.cause, located.position⟩

/-- Decodes the tree in front of the rest of a text. -/
def decodeBefore (text rest : List Char) (tree : Markup) :
    Except (Text.Located TextFault) Document :=
  (decode tree).mapError fun m => ⟨.content m, .before text (Text.byteSize rest)⟩

/-- Reads a text that is one schema document in JSON. -/
def parseJson (text : String) : Except (Text.Located TextFault) Document := do
  let cs := text.toList
  let start := Json.skipSpace cs
  if start.head? = some '[' then decodeBefore cs start (.list [])
  else
    let (tree, rest) ← (Json.readFront start).mapError (grammarFault cs)
    let document ← decodeBefore cs rest (.ofJson tree)
    (Json.readEnd rest).mapError (grammarFault cs)
    return document

end Document

end Conform

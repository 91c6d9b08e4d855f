/-!
# Tokens of YAML

The words of a YAML text. Indentation is among them, as starts and ends of block collections, and
so are the keys of mappings, which the text itself often marks only by the colon behind them.
-/

namespace Conform.Yaml

/-- Why a text is no YAML document, or none with a meaning. -/
inductive Fault where
  | badCharacter
  | unexpectedCharacter
  | unexpectedEnd
  | documentMarkerInScalar
  | tabInIndentation
  | badIndentationIndicator
  | trailingText
  | badEscape
  | badAnchor
  | badTag
  | badDirective
  | badColon
  | keyNotClosed
  | misplacedEntry
  | misplacedKey
  | misplacedValue
  | unknownTagHandle
  | unexpectedToken
  | severalDocuments
  | unknownAlias
  | tooManyAliases
  | tooDeep
  | badScalar
  | taggedData
  | badKey
  | endOfInput
  deriving DecidableEq

/-- The wording of a fault. -/
def Fault.message : Fault → String
  | .badCharacter => "control characters are not allowed"
  | .unexpectedCharacter => "found character that cannot start any token"
  | .unexpectedEnd => "found unexpected end of stream"
  | .documentMarkerInScalar => "found unexpected document indicator"
  | .tabInIndentation => "found a tab character in indentation"
  | .badIndentationIndicator => "found an indentation indicator equal to 0"
  | .trailingText => "did not find expected comment or line break"
  | .badEscape => "found unknown escape character"
  | .badAnchor => "did not find expected alphabetic or numeric character"
  | .badTag => "did not find expected tag"
  | .badDirective => "found unknown directive"
  | .badColon => "found unexpected ':'"
  | .keyNotClosed => "could not find expected ':'"
  | .misplacedEntry => "block sequence entries are not allowed in this context"
  | .misplacedKey => "mapping keys are not allowed in this context"
  | .misplacedValue => "mapping values are not allowed in this context"
  | .unknownTagHandle => "found undefined tag handle"
  | .unexpectedToken => "did not find expected node content"
  | .severalDocuments => "found a further document"
  | .unknownAlias => "unknown anchor"
  | .tooManyAliases => "repetition limit exceeded"
  | .tooDeep => "recursion limit exceeded"
  | .badScalar => "invalid value"
  | .taggedData => "unexpected tag"
  | .badKey => "invalid type of key"
  | .endOfInput => "found no document"

/-- A tag or a part of one. It is a list of octets, since escapes may spell what is no text. -/
abbrev Tag := List UInt8

/-- The tag that is a text. -/
def Tag.ofString (text : String) : Tag := text.toUTF8.data.toList

/-- The text that a tag is, if it is one. -/
def Tag.text? (tag : Tag) : Option String := String.fromUTF8? ⟨tag.toArray⟩

/-- The octets in front of the first that is zero. -/
def Tag.untilZero (tag : Tag) : Tag := tag.takeWhile (· ≠ 0)

/-- A token. -/
inductive Token where
  | version (major minor : Nat)
  | tagDirective (handle : String) (start : Tag)
  | documentStart
  | documentEnd
  | blockSequenceStart
  | blockMappingStart
  | blockEnd
  | flowSequenceStart
  | flowSequenceEnd
  | flowMappingStart
  | flowMappingEnd
  | blockEntry
  | flowEntry
  | key
  | value
  | alias (name : String)
  | anchor (name : String)
  | tag (handle : String) (suffix : Tag)
  | scalar (text : String) (plain : Bool)
  | streamEnd
  deriving DecidableEq

end Conform.Yaml

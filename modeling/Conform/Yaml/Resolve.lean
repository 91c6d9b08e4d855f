import Conform.Double.Read
import Conform.Markup
import Conform.Value.Json
import Conform.Yaml.Tree

/-!
# The meaning of YAML scalars

Plain scalars are null, truth values, numbers or text by their spelling; a tag of the core names
decides for one of these, and quoted scalars are text. `Tree.toMarkup` and `Tree.toValue` give the
data of a whole tree. They differ in the keys of mappings: to a value a key is the text of its
scalar, whatever it may mean.
-/

namespace Conform.Yaml

/-- The data of a scalar. A whole number written with a minus sign is `negative`. -/
inductive Scalar where
  | null
  | bool (b : Bool)
  | natural (n : Nat)
  | negative (n : Nat)
  | float (d : Double)
  | text (s : String)

/-- Whether a text is null. -/
def isNullText (text : String) : Bool := ["null", "Null", "NULL", "~"].contains text

/-- The truth value of a text. -/
def boolOfText? (text : String) : Option Bool :=
  if ["true", "True", "TRUE"].contains text then some true
  else if ["false", "False", "FALSE"].contains text then some false
  else none

/-- A text without a sign in front. -/
def unsigned : List Char → List Char
  | '+' :: rest => rest
  | '-' :: rest => rest
  | cs => cs

/-- Whether a text is a zero and further digits, which is no number. -/
def isZeroPadded (cs : List Char) : Bool :=
  match unsigned cs with
  | '0' :: digit :: rest => digit.isDigit && rest.all Char.isDigit
  | _ => false

/-- The value of a numeral without a sign, in the base that its first two characters tell. -/
def readMagnitude? : List Char → Option Nat
  | '0' :: 'x' :: digits => Text.readDigits? 16 digits
  | '0' :: 'o' :: digits => Text.readDigits? 8 digits
  | '0' :: 'b' :: digits => Text.readDigits? 2 digits
  | digits => Text.readDigits? 10 digits

/-- The whole number of a text. Numbers of 64 bits are data, those of 128 bits are refused, and
larger ones are no whole numbers. -/
def integerOfText? (cs : List Char) : Option (Except Fault Scalar) :=
  let within (wide narrow : Nat) (result : Nat → Scalar) (n : Nat) :
      Option (Except Fault Scalar) :=
    if n ≤ narrow then some (.ok (result n))
    else if n ≤ wide then some (.error .badScalar)
    else none
  if isZeroPadded cs then none
  else
    match cs with
    | '-' :: rest => (readMagnitude? rest).bind (within (1 <<< 127) (1 <<< 63) .negative)
    | '+' :: rest => (readMagnitude? rest).bind (within ((1 <<< 128) - 1) ((1 <<< 64) - 1) .natural)
    | rest => (readMagnitude? rest).bind (within ((1 <<< 128) - 1) ((1 <<< 64) - 1) .natural)

/-- The double of a text. The words for infinity and not-a-number start with a point. -/
def floatOfText? (text : String) : Option Double :=
  if [".inf", ".Inf", ".INF", "+.inf", "+.Inf", "+.INF"].contains text then some (.infinity false)
  else if ["-.inf", "-.Inf", "-.INF"].contains text then some (.infinity true)
  else if [".nan", ".NaN", ".NAN"].contains text then some .nan
  else (Double.ofText? text).filter Double.isFinite

/-- The data of a plain scalar without a tag. -/
def resolvePlain (text : String) : Except Fault Scalar :=
  let cs := text.toList
  if text.isEmpty ∨ isNullText text then .ok .null
  else
    match boolOfText? text, integerOfText? cs with
    | some b, _ => .ok (.bool b)
    | none, some result => result
    | none, none =>
      match if isZeroPadded cs then none else floatOfText? text with
      | some d => .ok (.float d)
      | none => .ok (.text text)

/-- Whether a tag is of a text's own. -/
def Tag.isLocal (tag : Tag) : Bool := (Tag.ofString "!").isPrefixOf tag

/-- Whether a tag may not stand in front of data: tags of a text's own have no meaning. One that is
no text is passed over. -/
def Tag.isRefused (tag : Tag) : Bool := tag.isLocal && tag.text?.isSome

/-- A core tag. -/
def coreTag (name : String) : Tag := .ofString ("tag:yaml.org,2002:" ++ name)

/-- The data of a scalar whose tag says nothing. -/
def resolveUntagged (plain : Bool) (text : String) : Except Fault Scalar :=
  if plain then resolvePlain text else .ok (.text text)

/-- The data of a scalar. A tag that is neither of the core nor of the text's own makes a text of
it. -/
def resolveScalar (tag : Option Tag) (plain : Bool) (text : String) : Except Fault Scalar :=
  match tag with
  | none => resolveUntagged plain text
  | some tag =>
    if tag.isRefused then .error .taggedData
    else if tag.isLocal then resolveUntagged plain text
    else if tag = coreTag "bool" then
      match boolOfText? text with
      | some b => .ok (.bool b)
      | none => .error .badScalar
    else if tag = coreTag "int" then
      match integerOfText? text.toList with
      | some result => result
      | none => .error .badScalar
    else if tag = coreTag "float" then
      match floatOfText? text with
      | some d => .ok (.float d)
      | none => .error .badScalar
    else if tag = coreTag "null" then
      if isNullText text then .ok .null else .error .badScalar
    else .ok (.text text)

/-- A collection may have any tag that is not refused. -/
def checkTag (tag : Option Tag) : Except Fault Unit :=
  if tag.any (·.isRefused) then .error .taggedData else .ok ()

/-- A scalar as markup. -/
def Scalar.toMarkup : Scalar → Markup
  | .null => .null
  | .bool b => .bool b
  | .natural n => .natural n
  | .negative n => .negative n
  | .float d => .float d
  | .text s => .text s

/-- A scalar as a value. A number that is not finite is null. -/
def Scalar.toValue : Scalar → Value
  | .null => .null
  | .bool b => .bool b
  | .natural n => .number (.ofNat n)
  | .negative n => .ofInt (-n)
  | .float d => if d.isFinite then .number d else .null
  | .text s => .string s

/-- A node of markup as the name of a member. -/
def keyOfMarkup : Markup → Markup.Key
  | .text s => .text s
  | .natural n => .natural n
  | tree => .other tree.finding

namespace Tree

mutual

/-- The markup of a tree. -/
def toMarkup : Tree → Except Fault Markup
  | .scalar tag plain text => (resolveScalar tag plain text).map Scalar.toMarkup
  | .sequence tag items => do
    checkTag tag
    return .list (← itemsToMarkup items)
  | .mapping tag entries => do
    checkTag tag
    return .map (← entriesToMarkup entries)

/-- The markup of the items. -/
def itemsToMarkup : List Tree → Except Fault (List Markup)
  | [] => .ok []
  | item :: rest => do
    let markup ← toMarkup item
    return markup :: (← itemsToMarkup rest)

/-- The markup of the entries. -/
def entriesToMarkup : List (Tree × Tree) → Except Fault (List (Markup.Key × Markup))
  | [] => .ok []
  | (key, value) :: rest => do
    let key ← toMarkup key
    let value ← toMarkup value
    return (keyOfMarkup key, value) :: (← entriesToMarkup rest)

end

/-- The text of a scalar that is a key. -/
def keyText : Tree → Except Fault String
  | .scalar _ _ text => .ok text
  | _ => .error .badKey

/-- The members of the root of a schema document, whose names are texts whatever they may mean. -/
def rootMembers : List (Tree × Tree) → Except Fault (List (Markup.Key × Markup))
  | [] => .ok []
  | (key, value) :: rest => do
    let key ← keyText key
    let value ← toMarkup value
    return (.text key, value) :: (← rootMembers rest)

/-- The markup of the root of a schema document. The tag of a mapping at the root is not looked
at. -/
def rootToMarkup : Tree → Except Fault Markup
  | .mapping _ entries => do return .map (← rootMembers entries)
  | tree => tree.toMarkup

mutual

/-- The value of a tree. -/
def toValue : Tree → Except Fault Value
  | .scalar tag plain text => (resolveScalar tag plain text).map Scalar.toValue
  | .sequence tag items => do
    checkTag tag
    return .array (← itemsToValue items)
  | .mapping tag entries => do
    checkTag tag
    return .object (← entriesToValue [] entries)

/-- The values of the items. -/
def itemsToValue : List Tree → Except Fault (List Value)
  | [] => .ok []
  | item :: rest => do
    let value ← toValue item
    return value :: (← itemsToValue rest)

/-- The entries of an object. Of two with the same name the later counts, in the place of the
first. -/
def entriesToValue (done : List (String × Value)) :
    List (Tree × Tree) → Except Fault (List (String × Value))
  | [] => .ok done
  | (key, value) :: rest => do
    let key ← keyText key
    let value ← toValue value
    entriesToValue (Entries.insert key value done) rest

end

end Tree

/-- Reads a text as a value. A text without a document is null. -/
def parseValue (text : String) : Except Fault Value := do
  match ← tree? text with
  | some tree => tree.toValue
  | none => return .null

/-- Reads a text as the markup of a schema document. -/
def parseMarkup (text : String) : Except Fault Markup := do
  match ← tree? text with
  | some tree => tree.rootToMarkup
  | none => .error .endOfInput

end Conform.Yaml

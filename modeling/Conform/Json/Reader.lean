import Conform.Double.Round
import Conform.Json.Basic
import Conform.Text.Numeral
import Conform.Text.Position

/-!
# Reading JSON

The reader goes over the characters of a text from left to right, one function for each rule of
the grammar, and each function returns what it has read and the characters that are left. Where
the grammar is broken it stops: `Stop` holds the fault and how many bytes of the text lie behind
the place that is told, from which the line and column follow.

Nesting is bounded, so values are read by recursion on the number of lists and objects that may
still be opened. The loops over items, members and characters of a string have a bound on their
rounds, for which the length of the whole text serves, since every round uses up one character at
least.

A number with a fraction or an exponent is not the nearest double to its decimal: its digits are
gathered in a 64-bit word, which is then multiplied or divided by a power of ten in doubles.

The main entry is `Json.parse`, which reads a text that is one document.
-/

namespace Conform.Json

/-- How a text breaks the grammar. -/
inductive SyntaxFault where
  | expectedValue
  | expectedWord
  | endInValue
  | endInList
  | endInObject
  | endInString
  | trailingComma
  | expectedListEnd
  | expectedObjectEnd
  | expectedColon
  | keyNotText
  | trailingCharacters
  | tooDeep
  | badEscape
  | controlCharacter
  | loneSurrogate
  | endOfHexEscape
  | badNumber
  | numberOutOfRange
  deriving DecidableEq

/-- The wording of a fault. -/
def SyntaxFault.message : SyntaxFault → String
  | .expectedValue => "expected value"
  | .expectedWord => "expected ident"
  | .endInValue => "EOF while parsing a value"
  | .endInList => "EOF while parsing a list"
  | .endInObject => "EOF while parsing an object"
  | .endInString => "EOF while parsing a string"
  | .trailingComma => "trailing comma"
  | .expectedListEnd => "expected `,` or `]`"
  | .expectedObjectEnd => "expected `,` or `\x7d`"
  | .expectedColon => "expected `:`"
  | .keyNotText => "key must be a string"
  | .trailingCharacters => "trailing characters"
  | .tooDeep => "recursion limit exceeded"
  | .badEscape => "invalid escape"
  | .controlCharacter =>
    "control character (\\u0000-\\u001F) found while parsing a string"
  | .loneSurrogate => "lone leading surrogate in hex escape"
  | .endOfHexEscape => "unexpected end of hex escape"
  | .badNumber => "invalid number"
  | .numberOutOfRange => "number out of range"

/-- A fault, and how many bytes of the text lie behind the place of it. -/
structure Stop where
  fault : SyntaxFault
  left : Nat

/-- Reading may stop. A function of the grammar returns what it has read from the front of a text
together with the rest of the text. -/
abbrev Scan := Except Stop

/-- Stops behind the given number of bytes of the rest, or at the end of the text if there are
fewer. -/
def stop {α : Type} (fault : SyntaxFault) (rest : List Char) (bytes : Nat) : Scan α :=
  .error ⟨fault, Text.byteSize rest - bytes⟩

/-- Whether a character may stand between the parts of a document. -/
def isSpace (c : Char) : Bool := c = ' ' || c = '\n' || c = '\t' || c = '\r'

/-- The text from the first character on that is no space. -/
def skipSpace (cs : List Char) : List Char := cs.dropWhile isSpace

/-- Reads the letters of a word. -/
def readWord : List Char → List Char → Scan (Unit × List Char)
  | [], rest => .ok ((), rest)
  | _ :: _, [] => stop .endInValue [] 0
  | letter :: letters, c :: rest =>
    if c = letter then readWord letters rest else stop .expectedWord (c :: rest) 1

/-! ## Strings -/

/-- Reads the four digits of an escape by code. -/
def readHex (cs : List Char) : Scan (Nat × List Char) :=
  let digits := cs.take 4
  match Text.readDigits? 16 digits with
  | some code =>
    if digits.length = 4 then .ok (code, cs.drop 4) else stop .endInString [] 0
  | none => if Text.byteSize cs < 4 then stop .endInString [] 0 else stop .badEscape cs 4

/-- Whether a code is the first half of a pair. -/
def isLeading (code : Nat) : Bool := 0xd800 ≤ code && code ≤ 0xdbff

/-- Whether a code is the second half of a pair. -/
def isTrailing (code : Nat) : Bool := 0xdc00 ≤ code && code ≤ 0xdfff

/-- Reads the code of an escape, and of the one that completes a pair. -/
def readCode (cs : List Char) : Scan (Char × List Char) := do
  let (code, rest) ← readHex cs
  if isTrailing code then stop .loneSurrogate rest 0
  else if isLeading code then
    match rest with
    | '\\' :: 'u' :: digits =>
      let (second, rest) ← readHex digits
      if isTrailing second then
        return (Char.ofNat (0x10000 + (code - 0xd800) * 0x400 + (second - 0xdc00)), rest)
      else stop .loneSurrogate rest 0
    | ['\\'] | [] => stop .endInString [] 0
    | '\\' :: rest => stop .endOfHexEscape rest 1
    | rest => stop .endOfHexEscape rest 1
  else return (Char.ofNat code, rest)

/-- Reads an escape from behind its backslash. -/
def readEscape : List Char → Scan (Char × List Char)
  | [] => stop .endInString [] 0
  | 'u' :: rest => readCode rest
  | c :: rest =>
    match c with
    | '"' => .ok ('"', rest)
    | '\\' => .ok ('\\', rest)
    | '/' => .ok ('/', rest)
    | 'b' => .ok ('\x08', rest)
    | 'f' => .ok ('\x0c', rest)
    | 'n' => .ok ('\n', rest)
    | 'r' => .ok ('\r', rest)
    | 't' => .ok ('\t', rest)
    | _ => stop .badEscape (c :: rest) 1

/-- Reads a string from behind its opening quote. -/
def readStringLoop : Nat → List Char → List Char → Scan (String × List Char)
  | 0, _, _ | _, _, [] => stop .endInString [] 0
  | rounds + 1, done, c :: rest =>
    if c = '"' then .ok (String.ofList done.reverse, rest)
    else if c = '\\' then do
      let (escaped, rest) ← readEscape rest
      readStringLoop rounds (escaped :: done) rest
    else if c.toNat < 0x20 then stop .controlCharacter (c :: rest) 1
    else readStringLoop rounds (c :: done) rest

/-- Reads a string from behind its opening quote. -/
def readString (bound : Nat) (cs : List Char) : Scan (String × List Char) :=
  readStringLoop bound [] cs

/-! ## Numbers -/

/-- Whether a text starts with a digit. -/
def startsWithDigit : List Char → Bool
  | [] => false
  | c :: _ => c.isDigit

/-- Gathers digits in a 64-bit word until one does not fit or is no digit, and counts them. -/
def gatherDigits (word count : Nat) : List Char → Nat × Nat × List Char
  | [] => (word, count, [])
  | c :: rest =>
    let next := word * 10 + (c.toNat - '0'.toNat)
    if c.isDigit ∧ next < 1 <<< 64 then gatherDigits next (count + 1) rest
    else (word, count, c :: rest)

/-- The double `10^places`. -/
def powerOfTen (places : Nat) : Magnitude :=
  (Magnitude.round (Nat.pow 10 places <<< Magnitude.unitBits) 1).getD .zero

/-- A magnitude divided by a power of ten, in steps of `10^308`. A 64-bit word is zero after two
steps. -/
def divideByTen : Nat → Magnitude → Nat → Double
  | 0, _, _ => .zero
  | steps + 1, x, places =>
    match Double.divMagnitude false x (powerOfTen (min places 308)) with
    | .finite _ y => if places ≤ 308 then .finite false y else divideByTen steps y (places - 308)
    | other => other

/-- A 64-bit word times a power of ten, computed in doubles; `none` if it is too large. -/
def scaleWord? (word : Nat) (exponent : Int) : Option Double :=
  match Double.ofNat word with
  | .finite _ x =>
    if exponent < 0 then some (divideByTen 3 x exponent.natAbs)
    else if 308 < exponent then if word = 0 then some .zero else none
    else some (Double.mulMagnitude false x (powerOfTen exponent.toNat)) |>.filter Double.isFinite
  | _ => none

/-- A number under a sign. -/
def withSign (negative : Bool) (d : Double) : Json.Number := .float (if negative then d.neg else d)

/-- The number with the gathered digits and exponent. -/
def scaledNumber (negative : Bool) (word : Nat) (exponent : Int) (rest : List Char) :
    Scan (Json.Number × List Char) :=
  match scaleWord? word exponent with
  | some d => .ok (withSign negative d, rest)
  | none => stop .numberOutOfRange rest 0

/-- Reads the digits of an exponent, of which at most 31 bits are kept. -/
def readExponentDigits (negative down : Bool) (word : Nat) (exponent : Int) (value : Nat) :
    List Char → Scan (Json.Number × List Char)
  | [] => scaledNumber negative word (if down then exponent - value else exponent + value) []
  | c :: rest =>
    if c.isDigit then
      let next := value * 10 + (c.toNat - '0'.toNat)
      if next < 1 <<< 31 then readExponentDigits negative down word exponent next rest
      else if word ≠ 0 ∧ !down then stop .numberOutOfRange rest 0
      else .ok (withSign negative .zero, rest.dropWhile Char.isDigit)
    else
      scaledNumber negative word (if down then exponent - value else exponent + value) (c :: rest)

/-- Reads an exponent from behind its letter. -/
def readExponent (negative : Bool) (word : Nat) (exponent : Int) (cs : List Char) :
    Scan (Json.Number × List Char) :=
  let (down, digits) := match cs with
    | '+' :: rest => (false, rest)
    | '-' :: rest => (true, rest)
    | rest => (false, rest)
  if digits.isEmpty then stop .endInValue [] 0
  else if startsWithDigit digits then readExponentDigits negative down word exponent 0 digits
  else stop .badNumber digits 1

/-- Reads an exponent, if there is one. -/
def readScale (negative : Bool) (word : Nat) (exponent : Int) :
    List Char → Scan (Json.Number × List Char)
  | 'e' :: rest => readExponent negative word exponent rest
  | 'E' :: rest => readExponent negative word exponent rest
  | rest => scaledNumber negative word exponent rest

/-- Reads a fraction from behind its point. Digits that no longer fit are left out. -/
def readFraction (negative : Bool) (word : Nat) (exponent : Int) (cs : List Char) :
    Scan (Json.Number × List Char) :=
  let (gathered, places, rest) := gatherDigits word 0 cs
  if startsWithDigit rest then
    readScale negative gathered (exponent - places) (rest.dropWhile Char.isDigit)
  else if 0 < places then readScale negative gathered (exponent - places) rest
  else if rest.isEmpty then stop .endInValue [] 0
  else stop .badNumber rest 1

/-- A number of digits alone. Below zero it is whole if it fits 64 bits with a sign and is not
zero. -/
def wholeNumber (negative : Bool) (word : Nat) : Json.Number :=
  if !negative then .integer word
  else if 0 < word ∧ word ≤ 1 <<< 63 then .integer (-word)
  else withSign true (Double.ofNat word)

/-- Reads what follows the digits in front of the point, of which `dropped` did not fit. -/
def readNumberEnd (negative : Bool) (word dropped : Nat) :
    List Char → Scan (Json.Number × List Char)
  | '.' :: rest => readFraction negative word dropped rest
  | rest =>
    if rest.head? = some 'e' ∨ rest.head? = some 'E' ∨ dropped ≠ 0 then
      readScale negative word dropped rest
    else .ok (wholeNumber negative word, rest)

/-- Reads a number from behind its sign. -/
def readNumber (negative : Bool) : List Char → Scan (Json.Number × List Char)
  | [] => stop .endInValue [] 0
  | '0' :: rest =>
    if startsWithDigit rest then stop .badNumber rest 1 else readNumberEnd negative 0 0 rest
  | c :: rest =>
    if c.isDigit then
      let (word, _, rest) := gatherDigits 0 0 (c :: rest)
      let (dropped, rest) := rest.span Char.isDigit
      readNumberEnd negative word dropped.length rest
    else stop .badNumber (c :: rest) 1

/-! ## Values -/

/-- Reads the items of a list from behind its bracket, or from behind an item. -/
def readItems (item : List Char → Scan (Json × List Char)) :
    Nat → Bool → List Json → List Char → Scan (Json × List Char)
  | 0, _, _, _ => stop .endInList [] 0
  | rounds + 1, first, done, cs => do
    match skipSpace cs with
    | [] => stop .endInList [] 0
    | ']' :: rest => return (.array done.reverse, rest)
    | c :: rest =>
      if first then
        let (value, rest) ← item (c :: rest)
        readItems item rounds false (value :: done) rest
      else if c = ',' then
        match skipSpace rest with
        | ']' :: rest => stop .trailingComma (']' :: rest) 1
        | rest =>
          let (value, rest) ← item rest
          readItems item rounds false (value :: done) rest
      else stop .expectedListEnd (c :: rest) 1

/-- Reads the colon and the value of a member. -/
def readMember (item : List Char → Scan (Json × List Char)) (cs : List Char) :
    Scan (Json × List Char) :=
  match skipSpace cs with
  | [] => stop .endInObject [] 0
  | ':' :: rest => item rest
  | rest => stop .expectedColon rest 1

/-- Reads the members of an object from behind its brace, or from behind a member. -/
def readMembers (bound : Nat) (item : List Char → Scan (Json × List Char)) :
    Nat → Bool → List (String × Json) → List Char → Scan (Json × List Char)
  | 0, _, _, _ => stop .endInObject [] 0
  | rounds + 1, first, done, cs => do
    match skipSpace cs with
    | [] => stop .endInObject [] 0
    | '\x7d' :: rest => return (.object done.reverse, rest)
    | c :: rest =>
      if !first && c != ',' then stop .expectedObjectEnd (c :: rest) 1
      else
        match if first then c :: rest else skipSpace rest with
        | '"' :: rest =>
          let (name, rest) ← readString bound rest
          let (value, rest) ← readMember item rest
          readMembers bound item rounds false ((name, value) :: done) rest
        | '\x7d' :: rest => stop .trailingComma ('\x7d' :: rest) 1
        | [] => stop .endInValue [] 0
        | rest => stop .keyNotText rest 1

/-- Reads a value that may open `depth` lists and objects inside one another. -/
def readValue (bound : Nat) : Nat → List Char → Scan (Json × List Char)
  | depth, cs => do
    match skipSpace cs with
    | [] => stop .endInValue [] 0
    | 'n' :: rest => return (.null, (← readWord ['u', 'l', 'l'] rest).2)
    | 't' :: rest => return (.bool true, (← readWord ['r', 'u', 'e'] rest).2)
    | 'f' :: rest => return (.bool false, (← readWord ['a', 'l', 's', 'e'] rest).2)
    | '"' :: rest =>
      let (s, rest) ← readString bound rest
      return (.string s, rest)
    | '-' :: rest =>
      let (n, rest) ← readNumber true rest
      return (.number n, rest)
    | '[' :: rest =>
      match depth with
      | 0 => stop .tooDeep ('[' :: rest) 1
      | depth + 1 => readItems (readValue bound depth) bound true [] rest
    | '\x7b' :: rest =>
      match depth with
      | 0 => stop .tooDeep ('\x7b' :: rest) 1
      | depth + 1 => readMembers bound (readValue bound depth) bound true [] rest
    | c :: rest =>
      if c.isDigit then
        let (n, rest) ← readNumber false (c :: rest)
        return (.number n, rest)
      else stop .expectedValue (c :: rest) 1

/-- How many lists and objects may be open inside one another. -/
def depthLimit : Nat := 127

/-- Reads the value at the front of a text. -/
def readFront (cs : List Char) : Scan (Json × List Char) := readValue (cs.length + 1) depthLimit cs

/-- Accepts the end of a document. -/
def readEnd (cs : List Char) : Scan Unit :=
  match skipSpace cs with
  | [] => .ok ()
  | rest => .error ⟨.trailingCharacters, Text.byteSize rest - 1⟩

/-- A fault at its place in a text. -/
def Stop.locate (text : List Char) (s : Stop) : Text.Located SyntaxFault :=
  ⟨s.fault, .before text s.left⟩

/-- Reads a text that is one document. -/
def parse (text : String) : Except (Text.Located SyntaxFault) Json :=
  let cs := text.toList
  let document : Scan Json := do
    let (value, rest) ← readFront cs
    readEnd rest
    return value
  document.mapError (Stop.locate cs)

end Conform.Json

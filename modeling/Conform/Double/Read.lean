import Conform.Double.Round
import Conform.Text.Numeral

/-!
# Reading doubles

A number in text is an optional sign and either a decimal or a word for infinity or not-a-number,
in any case. A decimal has digits before or behind a point, or both, and may have an exponent. It is
read to the nearest double.
-/

namespace Conform.Double

/-- The decimal digits in front of a text, and what follows them. -/
def splitDigits (cs : List Char) : List Char × List Char := cs.span Char.isDigit

/-- The exponent at the end of a decimal: nothing, or a letter, an optional sign and digits. -/
def readExponent? : List Char → Option Int
  | [] => some 0
  | letter :: rest =>
    if letter = 'e' ∨ letter = 'E' then
      match rest with
      | '+' :: digits => (Text.readDigits? 10 digits).map Int.ofNat
      | '-' :: digits => (Text.readDigits? 10 digits).map fun n => -Int.ofNat n
      | digits => (Text.readDigits? 10 digits).map Int.ofNat
    else none

/-- A decimal without a sign. -/
def readDecimal? (negative : Bool) (cs : List Char) : Option Double := do
  let (whole, rest) := splitDigits cs
  let (fraction, rest) := match rest with
    | '.' :: rest => splitDigits rest
    | rest => ([], rest)
  let exponent ← readExponent? rest
  let digits ← Text.readDigits? 10 (whole ++ fraction)
  return ofDecimal negative digits (exponent - fraction.length)

/-- A number without a sign. -/
def readUnsigned? (negative : Bool) (cs : List Char) : Option Double :=
  let word := String.ofList (cs.map Char.toLower)
  if word = "inf" ∨ word = "infinity" then some (.infinity negative)
  else if word = "nan" then some .nan
  else readDecimal? negative cs

/-- The double that a text denotes. -/
def ofText? (text : String) : Option Double :=
  match text.toList with
  | '+' :: rest => readUnsigned? false rest
  | '-' :: rest => readUnsigned? true rest
  | cs => readUnsigned? false cs

end Conform.Double

/-!
# Whole numbers in text

`readInteger` reads a numeral with an optional sign from left to right and stops at the first
character at which it fails: one that is no digit, or a digit that takes the value out of bounds.
`readDigits?` reads digits of a base, without sign and bounds.
-/

namespace Conform.Text

/-- Why a text is no integer within the bounds. -/
inductive NumeralFault where
  | empty
  | badDigit
  | tooLarge
  | tooSmall
  deriving DecidableEq

/-- The wording of a fault. -/
def NumeralFault.message : NumeralFault → String
  | .empty => "cannot parse integer from empty string"
  | .badDigit => "invalid digit found in string"
  | .tooLarge => "number too large to fit in target type"
  | .tooSmall => "number too small to fit in target type"

/-- The value of a digit in a base up to sixteen. -/
def digitValue? (base : Nat) (c : Char) : Option Nat :=
  let value :=
    if '0' ≤ c ∧ c ≤ '9' then some (c.toNat - '0'.toNat)
    else if 'a' ≤ c ∧ c ≤ 'f' then some (c.toNat - 'a'.toNat + 10)
    else if 'A' ≤ c ∧ c ≤ 'F' then some (c.toNat - 'A'.toNat + 10)
    else none
  value.filter (· < base)

/-- The value of one or more digits of a base. -/
def readDigits? (base : Nat) : List Char → Option Nat
  | [] => none
  | digits => digits.foldlM (fun n c => (digitValue? base c).map (n * base + ·)) 0

/-- The value of decimal digits under a sign, kept below a bound in magnitude. -/
def readBounded (overflow : NumeralFault) (bound : Nat) (digits : List Char) :
    Except NumeralFault Nat :=
  digits.foldlM (fun n c =>
    match digitValue? 10 c with
    | none => .error .badDigit
    | some d => if n * 10 + d ≤ bound then .ok (n * 10 + d) else .error overflow) 0

/-- Reads an integer from `-low` to `high`. A plus sign is allowed, and a minus sign if there are
integers below zero. -/
def readInteger (low high : Nat) (text : String) : Except NumeralFault Int :=
  match text.toList with
  | [] => .error .empty
  | ['+'] | ['-'] => .error .badDigit
  | '+' :: digits => (readBounded .tooLarge high digits).map Int.ofNat
  | '-' :: digits =>
    if low = 0 then .error .badDigit
    else (readBounded .tooSmall low digits).map fun n => -Int.ofNat n
  | digits => (readBounded .tooLarge high digits).map Int.ofNat

/-- Reads a position in a list: a whole number below `2^64`. -/
def readPosition? (text : String) : Option Nat :=
  match readInteger 0 ((1 <<< 64) - 1) text with
  | .ok n => some n.toNat
  | .error _ => none

end Conform.Text

import Conform.Double.Basic

/-!
# The fewest digits that read back

A decimal reads back as a double when it lies in the interval of reals that round to it; the ends
belong to the interval when the mantissa is even. `Magnitude.shortest` tries last places from the
one above the leading digit down to the seventeenth digit, and stops at the first at which one of
the value's two neighbours reads back. Of two neighbours that both do, the nearer one is taken.
-/

namespace Conform

/-- `digits * 10^exponent`. -/
structure Decimal where
  digits : Nat
  exponent : Int
  deriving DecidableEq

/-- Which of two decimals at the same distance from a value is taken. -/
inductive Tie where
  | toEven
  | up
  deriving DecidableEq

namespace Magnitude

/-- The exponent of the leading decimal digit of a magnitude other than zero. Below one it is taken
from the first 400 decimal places, which every magnitude reaches. -/
def leadExponent (x : Magnitude) : Int :=
  if 0 < x.floor then (Nat.toDigits 10 x.floor).length - 1
  else (Nat.toDigits 10 (x.units * Nat.pow 10 400 / (1 <<< unitBits))).length - 401

/-- Four times the number of units from the value down to the next rounding boundary: half the gap
to the neighbour below, which is narrower under a power of two. -/
def gapBelow (x : Magnitude) : Nat :=
  if x.mantissa = 1 <<< 52 ∧ 0 < x.exponent then 1 <<< x.exponent else 2 <<< x.exponent

/-- Four times the number of units from the value up to the next rounding boundary. -/
def gapAbove (x : Magnitude) : Nat := 2 <<< x.exponent

/-- Whether `numerator / denominator` units round to the magnitude. -/
def covers (x : Magnitude) (numerator denominator : Nat) : Bool :=
  let point := 4 * numerator
  let low := (4 * x.units - x.gapBelow) * denominator
  let high := (4 * x.units + x.gapAbove) * denominator
  if x.mantissa % 2 = 0 then low ≤ point && point ≤ high else low < point && point < high

/-- The nearest decimal with the given last place that reads back as the magnitude, if one of the
two beside the value does. -/
def shortestAt? (x : Magnitude) (tie : Tie) (place : Int) : Option Decimal :=
  let numerator := Nat.pow 10 place.toNat
  let denominator := Nat.pow 10 (-place).toNat
  let step := numerator <<< unitBits
  let below := x.units * denominator / step
  let remainder := x.units * denominator % step
  let readsBack := fun digits => x.covers (digits * step) denominator
  let takeAbove := step < 2 * remainder ||
    (2 * remainder == step && (tie == .up || below % 2 == 1))
  match readsBack below, readsBack (below + 1) with
  | true, true => some ⟨if takeAbove then below + 1 else below, place⟩
  | true, false => some ⟨below, place⟩
  | false, true => some ⟨below + 1, place⟩
  | false, false => none

/-- The decimal with the fewest digits that reads back as a magnitude other than zero. -/
def shortest (x : Magnitude) (tie : Tie) : Decimal :=
  let lead := x.leadExponent
  let found := (List.range 18).findSome? fun (n : Nat) => x.shortestAt? tie (lead + 1 - n)
  found.getD ⟨x.units, 0⟩

end Magnitude

end Conform

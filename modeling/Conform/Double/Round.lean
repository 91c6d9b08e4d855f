import Conform.Double.Basic

/-!
# Rounding to doubles

Every operation on doubles here is exact arithmetic on natural numbers followed by one rounding, to
the nearest double and from the middle to the even mantissa. `Magnitude.round` is that rounding;
whole numbers, decimals, products and quotients are rounded through it.
-/

namespace Conform

/-- The quotient rounded to the nearest whole number, from the middle to the even one. -/
def roundQuotient (numerator denominator : Nat) : Nat :=
  let quotient := numerator / denominator
  let remainder := numerator % denominator
  if 2 * remainder < denominator then quotient
  else if denominator < 2 * remainder then quotient + 1
  else quotient + quotient % 2

namespace Magnitude

/-- The magnitude nearest to `numerator / denominator` units, or `none` beyond the largest one. -/
def round (numerator denominator : Nat) : Option Magnitude :=
  let exponent := (numerator / denominator).log2 - 52
  let mantissa := roundQuotient numerator (denominator <<< exponent)
  if h : mantissa < 1 <<< 53 ∧ exponent ≤ 2045 ∧ (exponent = 0 ∨ 1 <<< 52 ≤ mantissa) then
    some ⟨mantissa, exponent, h⟩
  else if h : exponent + 1 ≤ 2045 then
    some ⟨1 <<< 52, exponent + 1, by decide, h, Or.inr (Nat.le_refl _)⟩
  else
    none

end Magnitude

namespace Double

/-- The double nearest to `numerator / denominator` under a sign; too large a quotient is
infinite. -/
def ofQuotient (negative : Bool) (numerator denominator : Nat) : Double :=
  match Magnitude.round (numerator <<< Magnitude.unitBits) denominator with
  | some x => .finite negative x
  | none => .infinity negative

/-- The double nearest to a whole number. -/
def ofNat (n : Nat) : Double := ofQuotient false n 1

/-- The double nearest to an integer. -/
def ofInt (n : Int) : Double := ofQuotient (n < 0) n.natAbs 1

/-- The double nearest to `digits * 10^exponent` under a sign. Beyond 400 decimal places either
way the result is settled without the power being computed. -/
def ofDecimal (negative : Bool) (digits : Nat) (exponent : Int) : Double :=
  if digits = 0 then .finite negative .zero
  else
    let lead : Int := exponent + (Nat.toDigits 10 digits).length
    if 400 < lead then .infinity negative
    else if lead < -400 then .finite negative .zero
    else if 0 ≤ exponent then ofQuotient negative (digits * Nat.pow 10 exponent.toNat) 1
    else ofQuotient negative digits (Nat.pow 10 (-exponent).toNat)

/-- The product of two magnitudes, rounded. -/
def mulMagnitude (negative : Bool) (a b : Magnitude) : Double :=
  ofQuotient negative (a.units * b.units) (1 <<< (2 * Magnitude.unitBits))

/-- The quotient of two magnitudes, rounded. -/
def divMagnitude (negative : Bool) (a b : Magnitude) : Double :=
  ofQuotient negative a.units b.units

end Double

end Conform

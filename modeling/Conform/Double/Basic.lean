/-!
# Double-precision numbers

A double is not a number, an infinity, or a sign and a magnitude. A magnitude is a mantissa below
`2^53` scaled by a power of two and counted in units of `2^-1074`, the smallest positive double.
The mantissa of a scaled magnitude is at least `2^52`, so each magnitude is written in one way and
equality of magnitudes is equality of numbers.
-/

namespace Conform

/-- A finite magnitude: `mantissa * 2^exponent` units of `2^-1074`. -/
structure Magnitude where
  mantissa : Nat
  exponent : Nat
  canonical : mantissa < 1 <<< 53 ∧ exponent ≤ 2045 ∧ (exponent = 0 ∨ 1 <<< 52 ≤ mantissa)
  deriving DecidableEq

/-- A double-precision number. -/
inductive Double where
  | nan
  | infinity (negative : Bool)
  | finite (negative : Bool) (magnitude : Magnitude)
  deriving DecidableEq

namespace Magnitude

/-- The unit of magnitudes is `2^-unitBits`. -/
def unitBits : Nat := 1074

/-- How many units of `2^-1074` the magnitude is. -/
def units (x : Magnitude) : Nat := x.mantissa <<< x.exponent

/-- The magnitude zero. -/
def zero : Magnitude := ⟨0, 0, by decide⟩

/-- Whether the magnitude is a whole number. -/
def isIntegral (x : Magnitude) : Bool := x.units % (1 <<< unitBits) == 0

/-- The whole part of the magnitude. -/
def floor (x : Magnitude) : Nat := x.units / (1 <<< unitBits)

end Magnitude

namespace Double

/-- Zero, without a sign. -/
def zero : Double := .finite false .zero

/-- Neither infinite nor not-a-number. -/
def isFinite : Double → Bool
  | .finite _ _ => true
  | _ => false

/-- A finite number without a fraction. -/
def isIntegral : Double → Bool
  | .finite _ x => x.isIntegral
  | _ => false

/-- A number above zero. -/
def isPositive : Double → Bool
  | .finite false x => x.mantissa != 0
  | .infinity negative => !negative
  | _ => false

/-- The same number with the sign turned. -/
def neg : Double → Double
  | .nan => .nan
  | .infinity negative => .infinity (!negative)
  | .finite negative x => .finite (!negative) x

/-- Equality of numbers: not-a-number differs from itself and zero has one value under both
signs. -/
def eq : Double → Double → Bool
  | .infinity a, .infinity b => a == b
  | .finite a x, .finite b y => x == y && (a == b || x.mantissa == 0)
  | _, _ => false

end Double

end Conform

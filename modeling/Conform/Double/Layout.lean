import Conform.Double.Shortest

/-!
# Writing doubles

A double is written with the fewest digits that read back. A layout says between which exponents
of the leading digit the digits are written out around a point; outside them the number has a
power of ten, with a sign in front of it either way.
-/

namespace Conform

/-- The decisions of a number format. -/
structure Layout where
  /-- The least exponent of the leading digit that is written out. -/
  plainFrom : Int
  /-- The exponent of the leading digit from which on a power of ten is written. -/
  plainBelow : Int
  /-- Whether a whole number that is written out ends in a point and a zero. -/
  pointZero : Bool
  /-- The choice between two shortest decimals at the same distance. -/
  tie : Tie

namespace Layout

/-- The digits of a decimal written out around a point. -/
def plain (layout : Layout) (d : Decimal) : String :=
  let digits := Nat.toDigits 10 d.digits
  let point : Int := digits.length + d.exponent
  if 0 ≤ d.exponent then
    String.ofList (digits ++ List.replicate d.exponent.toNat '0') ++
      (if layout.pointZero then ".0" else "")
  else if 0 < point then
    String.ofList (digits.take point.toNat ++ '.' :: digits.drop point.toNat)
  else
    String.ofList ('0' :: '.' :: (List.replicate (-point).toNat '0' ++ digits))

/-- The digits of a decimal behind the first one's point, and the power of ten. -/
def scientific (d : Decimal) : String :=
  let digits := Nat.toDigits 10 d.digits
  let lead : Int := digits.length + d.exponent - 1
  let mantissa := match digits with
    | first :: second :: rest => first :: '.' :: second :: rest
    | short => short
  String.ofList mantissa ++ (if lead < 0 then "e-" else "e+") ++ toString lead.natAbs

/-- The text of a magnitude. -/
def magnitude (layout : Layout) (x : Magnitude) : String :=
  if x.mantissa = 0 then layout.plain ⟨0, 0⟩
  else
    let d := x.shortest layout.tie
    let lead : Int := (Nat.toDigits 10 d.digits).length + d.exponent - 1
    if layout.plainFrom ≤ lead ∧ lead < layout.plainBelow then layout.plain d else scientific d

/-- The text of a signed magnitude. -/
def signed (layout : Layout) (negative : Bool) (x : Magnitude) : String :=
  (if negative then "-" else "") ++ layout.magnitude x

end Layout

namespace Double

/-- Numbers in messages are written out from a millionth up to `10^21`, whole numbers without a
point. -/
def messageLayout : Layout := ⟨-6, 21, false, .up⟩

/-- The text of a number in a message. Zero has no sign there. -/
def toText : Double → String
  | .nan => "NaN"
  | .infinity negative => if negative then "-Infinity" else "Infinity"
  | .finite negative x => if x.mantissa = 0 then "0" else messageLayout.signed negative x

end Double

end Conform

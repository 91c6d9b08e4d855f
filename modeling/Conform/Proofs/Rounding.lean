import Conform.Double.Round

/-!
# Rounding to magnitudes

A number is rounded to a multiple of a power of two, with 53 bits in front of it, and the binary
logarithm of the number tells the power (`Magnitude.units_of_round`). No magnitude is nearer to the
number (`Magnitude.round_nearest`): those that are no such multiples are all too small.

Rounding changes nothing where there is nothing to round. So it is with the units of a magnitude
(`Magnitude.round_units`), and a whole double is the double nearest to its whole part, which is how
it comes through an integer and back. Numbers that are not too large are rounded to something
finite.
-/

namespace Conform

/-- A multiple is divided without rounding. -/
theorem roundQuotient_mul (n : Nat) {d : Nat} (hd : 0 < d) : roundQuotient (n * d) d = n := by
  unfold roundQuotient
  simp only [Nat.mul_mod_left, Nat.mul_div_cancel n hd]
  rw [if_pos (by omega)]

/-- A quotient is not rounded below its whole part. -/
theorem le_roundQuotient (n d : Nat) : n / d ≤ roundQuotient n d := by
  unfold roundQuotient
  dsimp only
  split
  · exact Nat.le_refl _
  · split <;> omega

/-- A quotient is not rounded past a whole number that it does not exceed. -/
theorem roundQuotient_le {n d m : Nat} (hd : 0 < d) (h : n ≤ m * d) : roundQuotient n d ≤ m := by
  have hdivmod : d * (n / d) + n % d = n := Nat.div_add_mod n d
  have hle : n / d ≤ m := Nat.div_le_of_le_mul (by rwa [Nat.mul_comm])
  by_cases heq : n / d = m
  · -- Nothing remains where the quotient is the number itself.
    have hremainder : n % d = 0 := by
      rw [heq, Nat.mul_comm] at hdivmod
      omega
    unfold roundQuotient
    rw [hremainder, if_pos (by omega)]
    exact hle
  · unfold roundQuotient
    dsimp only
    split
    · exact hle
    · split <;> omega

/-- A quotient with so many bits above 52 has 53 bits when they are rounded away. -/
theorem shiftLeft_le_roundQuotient {numerator denominator exponent : Nat}
    (hne : numerator / denominator ≠ 0) (h : 52 + exponent ≤ (numerator / denominator).log2) :
    1 <<< 52 ≤ roundQuotient numerator (denominator <<< exponent) := by
  refine Nat.le_trans ?_ (le_roundQuotient ..)
  rw [Nat.shiftLeft_eq denominator, ← Nat.div_div_eq_div_mul,
    Nat.le_div_iff_mul_le (Nat.two_pow_pos _), Nat.one_shiftLeft, ← Nat.pow_add]
  exact Nat.le_trans (Nat.pow_le_pow_right Nat.two_pos h) (Nat.log2_self_le hne)

/-- No multiple of the divisor is nearer to a number than that of its rounded quotient. -/
theorem roundQuotient_nearest (n : Nat) {d : Nat} (hd : 0 < d) (k : Nat) :
    ((n : Int) - (roundQuotient n d * d : Nat)).natAbs ≤ ((n : Int) - (k * d : Nat)).natAbs := by
  have hdivmod : n / d * d + n % d = n := Nat.div_add_mod' n d
  have hremainder : n % d < d := Nat.mod_lt n hd
  -- A multiple is at most the one below the number, or at least the next one.
  have hmultiple : k * d ≤ n / d * d ∨ n / d * d + d ≤ k * d := by
    rcases Nat.lt_or_ge (n / d) k with hk | hk
    · right
      rw [← Nat.succ_mul]
      exact Nat.mul_le_mul_right d hk
    · left
      exact Nat.mul_le_mul_right d hk
  unfold roundQuotient
  dsimp only
  split
  · omega
  · split
    · rw [Nat.succ_mul]
      omega
    · -- Both neighbours are equally far.
      rcases Nat.mod_two_eq_zero_or_one (n / d) with hparity | hparity
      · rw [hparity, Nat.add_zero]
        omega
      · rw [hparity, Nat.succ_mul]
        omega

namespace Magnitude

/-- The mantissa has 53 bits at most. -/
theorem mantissa_lt (x : Magnitude) : x.mantissa < 1 <<< 53 := x.canonical.1

/-- A mantissa that is scaled has 53 bits. -/
theorem le_mantissa (x : Magnitude) (h : x.exponent ≠ 0) : 1 <<< 52 ≤ x.mantissa :=
  x.canonical.2.2.resolve_left h

/-- Only zero has no units. -/
theorem units_eq_zero {x : Magnitude} : x.units = 0 ↔ x.mantissa = 0 := by
  rw [units, Nat.shiftLeft_eq, Nat.mul_eq_zero]
  exact or_iff_left (Nat.ne_of_gt (Nat.two_pow_pos _))

/-- The exponent is how many bits the units have above 53. -/
theorem log2_units (x : Magnitude) : x.units.log2 - 52 = x.exponent := by
  by_cases hexponent : x.exponent = 0
  · have hunits : x.units = x.mantissa := by rw [units, hexponent, Nat.shiftLeft_zero]
    have hlog : x.units.log2 < 53 := by
      by_cases hzero : x.units = 0
      · rw [hzero]
        decide
      · rw [Nat.log2_lt hzero, hunits]
        exact x.mantissa_lt
    omega
  · have hle : 1 <<< 52 ≤ x.mantissa := x.le_mantissa hexponent
    have hne : x.units ≠ 0 := fun hzero => by
      rw [units_eq_zero.1 hzero] at hle
      exact absurd hle (by decide)
    have hlower : 52 + x.exponent ≤ x.units.log2 := by
      rw [Nat.le_log2 hne, units, Nat.shiftLeft_eq, Nat.pow_add]
      exact Nat.mul_le_mul_right _ hle
    have hupper : x.units.log2 < 53 + x.exponent := by
      rw [Nat.log2_lt hne, units, Nat.shiftLeft_eq, Nat.pow_add]
      exact Nat.mul_lt_mul_of_pos_right x.mantissa_lt (Nat.two_pow_pos _)
    omega

/-- The rounding of a quotient that has so many bits above 53. -/
theorem round_eq {numerator denominator exponent : Nat}
    (h : (numerator / denominator).log2 - 52 = exponent) :
    round numerator denominator =
      let mantissa := roundQuotient numerator (denominator <<< exponent)
      if h : mantissa < 1 <<< 53 ∧ exponent ≤ 2045 ∧ (exponent = 0 ∨ 1 <<< 52 ≤ mantissa) then
        some ⟨mantissa, exponent, h⟩
      else if h : exponent + 1 ≤ 2045 then
        some ⟨1 <<< 52, exponent + 1, by decide, h, Or.inr (Nat.le_refl _)⟩
      else
        none := by
  subst h
  rfl

/-- The units of a magnitude are rounded to the magnitude. -/
theorem round_units (x : Magnitude) : round x.units 1 = some x := by
  have hmantissa : roundQuotient x.units (1 <<< x.exponent) = x.mantissa := by
    rw [units, Nat.shiftLeft_eq, Nat.one_shiftLeft, roundQuotient_mul _ (Nat.two_pow_pos _)]
  rw [round_eq (by rw [Nat.div_one, log2_units])]
  simp only [hmantissa]
  rw [dif_pos x.canonical]

/-- Whatever is below `2^2097` units is rounded to a magnitude. -/
theorem exists_round {numerator denominator : Nat}
    (h : (numerator / denominator).log2 < 2097) : ∃ x, round numerator denominator = some x := by
  unfold round
  dsimp only
  split
  · exact ⟨_, rfl⟩
  · rw [dif_pos (by omega)]
    exact ⟨_, rfl⟩

/-- What does not exceed a magnitude is rounded to one. -/
theorem exists_round_of_le {numerator denominator : Nat} (hpos : 0 < denominator) {x : Magnitude}
    (h : numerator ≤ x.units * denominator) : ∃ y, round numerator denominator = some y := by
  by_cases hsmall : (numerator / denominator).log2 < 2097
  · exact exists_round hsmall
  · -- The quotient has as many bits as any magnitude, so it has the exponent of this one.
    have hne : numerator / denominator ≠ 0 := fun hzero => by
      rw [hzero] at hsmall
      exact hsmall (by decide)
    have hlog : (numerator / denominator).log2 ≤ x.units.log2 := by
      have hle : numerator / denominator ≤ x.units :=
        Nat.div_le_of_le_mul (by rwa [Nat.mul_comm])
      have hne' : x.units ≠ 0 := Nat.ne_of_gt (Nat.lt_of_lt_of_le (Nat.pos_of_ne_zero hne) hle)
      rw [Nat.le_log2 hne']
      exact Nat.le_trans (Nat.log2_self_le hne) hle
    have hexponent : (numerator / denominator).log2 - 52 = x.exponent := by
      have hmax : x.exponent ≤ 2045 := x.canonical.2.1
      have hunits := x.log2_units
      omega
    have hmantissa : roundQuotient numerator (denominator <<< x.exponent) ≤ x.mantissa := by
      have hscaled : 0 < denominator <<< x.exponent := by
        rw [Nat.shiftLeft_eq]
        exact Nat.mul_pos hpos (Nat.two_pow_pos _)
      refine roundQuotient_le hscaled ?_
      rw [Nat.shiftLeft_eq, Nat.mul_comm denominator, ← Nat.mul_assoc, ← Nat.shiftLeft_eq]
      exact h
    have hbits : 1 <<< 52 ≤ roundQuotient numerator (denominator <<< x.exponent) :=
      shiftLeft_le_roundQuotient hne (by omega)
    rw [round_eq hexponent]
    exact ⟨_, dif_pos
      ⟨Nat.lt_of_le_of_lt hmantissa x.mantissa_lt, x.canonical.2.1, .inr hbits⟩⟩

/-- What a number is rounded to is its quotient by a power of two, rounded, with 53 bits. -/
theorem units_of_round {n : Nat} {x : Magnitude} (h : round n 1 = some x) :
    x.units = roundQuotient n (1 <<< (n.log2 - 52)) <<< (n.log2 - 52) := by
  generalize he : n.log2 - 52 = exponent at h ⊢
  have hle : roundQuotient n (1 <<< exponent) ≤ 1 <<< 53 := by
    apply roundQuotient_le (by rw [Nat.one_shiftLeft]; exact Nat.two_pow_pos _)
    rw [Nat.one_shiftLeft, Nat.one_shiftLeft, ← Nat.pow_add]
    refine Nat.le_trans (Nat.le_of_lt Nat.lt_log2_self) (Nat.pow_le_pow_right Nat.two_pos ?_)
    omega
  have hbits (hexponent : exponent ≠ 0) : 1 <<< 52 ≤ roundQuotient n (1 <<< exponent) := by
    have hne : n ≠ 0 := fun hzero => by
      rw [hzero] at he
      exact hexponent he.symm
    refine shiftLeft_le_roundQuotient (by rwa [Nat.div_one]) ?_
    rw [Nat.div_one]
    omega
  rw [round_eq (by rw [Nat.div_one, he])] at h
  dsimp only at h
  split at h
  · obtain rfl := Option.some.inj h
    rfl
  · rename_i hcanonical
    split at h
    · obtain rfl := Option.some.inj h
      -- The mantissa has one bit too many, so it is the power of two, which has a bit less to scale.
      have heq : roundQuotient n (1 <<< exponent) = 1 <<< 53 := by
        by_cases hexponent : exponent = 0
        · omega
        · have := hbits hexponent
          omega
      rw [heq, units]
      show (1 <<< 52) <<< (exponent + 1) = (1 <<< 53) <<< exponent
      rw [← Nat.shiftLeft_add, ← Nat.shiftLeft_add]
      congr 1
      omega
    · cases h

/-- No magnitude is nearer to a number than the one that it is rounded to. -/
theorem round_nearest {n : Nat} {x : Magnitude} (h : round n 1 = some x) (y : Magnitude) :
    ((n : Int) - x.units).natAbs ≤ ((n : Int) - y.units).natAbs := by
  have hnearest (k : Nat) : ((n : Int) - x.units).natAbs ≤
      ((n : Int) - (k <<< (n.log2 - 52) : Nat)).natAbs := by
    rw [units_of_round h, Nat.shiftLeft_eq (roundQuotient ..), Nat.shiftLeft_eq k, Nat.one_shiftLeft]
    exact roundQuotient_nearest n (Nat.two_pow_pos _) k
  rcases Nat.lt_or_ge y.exponent (n.log2 - 52) with hexponent | hexponent
  · -- A magnitude with a smaller exponent is below the least one with this exponent, which is not
    -- above the number.
    have hy : y.units ≤ (1 <<< 52) <<< (n.log2 - 52) := by
      rw [units, Nat.shiftLeft_eq, Nat.shiftLeft_eq (1 <<< 52)]
      refine Nat.le_trans (Nat.mul_le_mul_right _ (Nat.le_of_lt y.mantissa_lt)) ?_
      rw [Nat.one_shiftLeft, Nat.one_shiftLeft, ← Nat.pow_add, ← Nat.pow_add]
      exact Nat.pow_le_pow_right Nat.two_pos (by omega)
    have hn : (1 <<< 52) <<< (n.log2 - 52) ≤ n := by
      have hne : n ≠ 0 := fun hzero => by
        rw [hzero] at hexponent
        exact absurd hexponent (Nat.not_lt_zero _)
      rw [Nat.shiftLeft_eq, Nat.one_shiftLeft, ← Nat.pow_add]
      refine Nat.le_trans (Nat.pow_le_pow_right Nat.two_pos ?_) (Nat.log2_self_le hne)
      omega
    have hleast := hnearest (1 <<< 52)
    omega
  · -- Any other magnitude is a multiple of the power of two.
    have hy : y.units = (y.mantissa <<< (y.exponent - (n.log2 - 52))) <<< (n.log2 - 52) := by
      rw [units, ← Nat.shiftLeft_add, Nat.sub_add_cancel hexponent]
    rw [hy]
    exact hnearest _

/-- A number that has no more than 53 bits but for zeros at the end is not changed by rounding. -/
theorem units_round_shiftLeft {m k : Nat} (hm : m < 1 <<< 53) {x : Magnitude}
    (h : round (m <<< k) 1 = some x) : x.units = m <<< k := by
  have hexponent : (m <<< k).log2 - 52 ≤ k := by
    by_cases hzero : m <<< k = 0
    · rw [hzero]
      exact Nat.zero_le k
    · have hlog : (m <<< k).log2 < 53 + k := by
        rw [Nat.log2_lt hzero, Nat.shiftLeft_eq, Nat.pow_add, ← Nat.one_shiftLeft 53]
        exact Nat.mul_lt_mul_of_pos_right hm (Nat.two_pow_pos _)
      omega
  have hmultiple : m <<< k =
      (m <<< (k - ((m <<< k).log2 - 52))) * 1 <<< ((m <<< k).log2 - 52) := by
    rw [Nat.one_shiftLeft, ← Nat.shiftLeft_eq, ← Nat.shiftLeft_add, Nat.sub_add_cancel hexponent]
  rw [units_of_round h, Nat.shiftLeft_eq, ← Nat.one_shiftLeft]
  generalize (m <<< k).log2 - 52 = exponent at hmultiple ⊢
  have hpos : 0 < 1 <<< exponent := by
    rw [Nat.one_shiftLeft]
    exact Nat.two_pow_pos _
  rw [hmultiple, roundQuotient_mul _ hpos]

/-- Nothing is rounded below a power of two that it is not below itself. -/
theorem shiftLeft_le_units {k n : Nat} (hk : 52 < k) (hn : 1 <<< k ≤ n) {x : Magnitude}
    (h : round n 1 = some x) : 1 <<< k ≤ x.units := by
  rw [Nat.one_shiftLeft] at hn
  have hne : n ≠ 0 := Nat.ne_of_gt (Nat.lt_of_lt_of_le (Nat.two_pow_pos k) hn)
  have hlog : k ≤ n.log2 := (Nat.le_log2 hne).2 hn
  have hbits : 1 <<< 52 ≤ roundQuotient n (1 <<< (n.log2 - 52)) := by
    refine shiftLeft_le_roundQuotient (by rwa [Nat.div_one]) ?_
    rw [Nat.div_one]
    omega
  rw [units_of_round h, Nat.shiftLeft_eq (roundQuotient ..), Nat.one_shiftLeft]
  have hpower : 1 <<< k ≤ 1 <<< 52 * 1 <<< (n.log2 - 52) := by
    rw [Nat.one_shiftLeft, Nat.one_shiftLeft, Nat.one_shiftLeft, ← Nat.pow_add]
    exact Nat.pow_le_pow_right Nat.two_pos (by omega)
  rw [Nat.one_shiftLeft k, Nat.one_shiftLeft (n.log2 - 52)] at hpower
  exact Nat.le_trans hpower (Nat.mul_le_mul_right _ hbits)

/-- A magnitude with no mantissa is zero. -/
theorem eq_zero_of_mantissa {x : Magnitude} (h : x.mantissa = 0) : x = zero := by
  obtain ⟨mantissa, exponent, canonical⟩ := x
  obtain rfl : mantissa = 0 := h
  obtain ⟨-, -, rfl | hle⟩ := canonical
  · rfl
  · exact absurd hle (by decide)

/-- Zero is whole. -/
theorem isIntegral_zero : zero.isIntegral = true := by
  simp [isIntegral, units, zero]

/-- The whole part of zero is zero. -/
theorem floor_zero : zero.floor = 0 := by
  simp [floor, units, zero]

/-- A whole magnitude is its whole part. -/
theorem floor_shiftLeft {x : Magnitude} (h : x.isIntegral = true) :
    x.floor <<< unitBits = x.units := by
  have hdvd : 1 <<< unitBits ∣ x.units := Nat.dvd_of_mod_eq_zero (beq_iff_eq.1 h)
  rw [Nat.shiftLeft_eq, floor, ← Nat.one_shiftLeft, Nat.div_mul_cancel hdvd]

/-- A whole magnitude whose whole part is zero is zero. -/
theorem eq_zero_of_floor {x : Magnitude} (h : x.isIntegral = true) (hfloor : x.floor = 0) :
    x = zero := by
  refine eq_zero_of_mantissa (units_eq_zero.1 ?_)
  rw [← floor_shiftLeft h, hfloor, Nat.zero_shiftLeft]

end Magnitude

namespace Double

/-- A whole double is the one nearest to its whole part. -/
theorem ofQuotient_floor (negative : Bool) {x : Magnitude} (h : x.isIntegral = true) :
    ofQuotient negative x.floor 1 = .finite negative x := by
  unfold ofQuotient
  rw [Magnitude.floor_shiftLeft h, Magnitude.round_units]

/-- The double nearest to a quotient is finite unless the quotient is too large. -/
theorem isFinite_ofQuotient (negative : Bool) {numerator denominator : Nat}
    (h : (numerator <<< Magnitude.unitBits / denominator).log2 < 2097) :
    (ofQuotient negative numerator denominator).isFinite = true := by
  obtain ⟨x, hx⟩ := Magnitude.exists_round h
  unfold ofQuotient
  rw [hx]
  rfl

/-- The double nearest to a whole number of 64 bits is finite. -/
theorem isFinite_ofQuotient_one (negative : Bool) {n : Nat} (h : n < 1 <<< 64) :
    (ofQuotient negative n 1).isFinite = true := by
  refine isFinite_ofQuotient negative ?_
  rw [Nat.div_one]
  by_cases hzero : n <<< Magnitude.unitBits = 0
  · rw [hzero]
    decide
  · have hbits : 64 + Magnitude.unitBits ≤ 2097 := by decide
    refine Nat.lt_of_lt_of_le ?_ hbits
    rw [Nat.log2_lt hzero, Nat.shiftLeft_eq, Nat.pow_add]
    exact Nat.mul_lt_mul_of_pos_right h (Nat.two_pow_pos _)

/-- A double divided by one that is not below one is finite. -/
theorem isFinite_divMagnitude (negative : Bool) {x y : Magnitude}
    (h : 1 <<< Magnitude.unitBits ≤ y.units) : (divMagnitude negative x y).isFinite = true := by
  rw [Nat.one_shiftLeft] at h
  have hpos : 0 < y.units := Nat.lt_of_lt_of_le (Nat.two_pow_pos _) h
  have hle : x.units <<< Magnitude.unitBits ≤ x.units * y.units := by
    rw [Nat.shiftLeft_eq]
    exact Nat.mul_le_mul_left _ h
  obtain ⟨z, hz⟩ := Magnitude.exists_round_of_le hpos hle
  unfold divMagnitude ofQuotient
  rw [hz]
  rfl

end Double

end Conform

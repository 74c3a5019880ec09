import LoxLexer.Proofs.Decimal.Nearest

/-!
# The decimals of a number

The decimals that read back as a finite number are those to which its magnitude is
the nearest number (`readsBack_iff`).  They lie around the magnitude without a gap
(`readsBack_of_between`), and all that are close enough to it belong to them
(`readsBack_of_close`): two numbers never differ by less than a fixed part of either.
-/

namespace LoxLexer

open Ratio

namespace Binary64

variable {number other : Binary64}

/-! ## Magnitudes -/

/-- A number without its sign. -/
def abs (number : Binary64) : Binary64 := ofMagnitudeBits number.magnitudeBits

theorem magnitudeBits_lt (number : Binary64) : number.magnitudeBits < signWeight :=
  Nat.mod_lt _ (by decide)

theorem magnitudeBits_abs (number : Binary64) : number.abs.magnitudeBits = number.magnitudeBits :=
  magnitudeBits_ofMagnitudeBits number.magnitudeBits_lt

theorem isNegative_abs (number : Binary64) : number.abs.isNegative = false :=
  isNegative_ofMagnitudeBits number.magnitudeBits_lt

theorem magnitude_eq_of_magnitudeBits_eq
    (hbits : number.magnitudeBits = other.magnitudeBits) :
    number.magnitude = other.magnitude := by
  have hexponent : number.exponentField = other.exponentField := by
    rw [exponentField, exponentField, hbits]
  have hfraction : number.fractionField = other.fractionField := by
    rw [fractionField, fractionField, hbits]
  rw [magnitude, magnitude, significand, significand, exponent, exponent, hexponent, hfraction]

theorem value_abs (number : Binary64) : number.abs.value = number.magnitude.value := by
  rw [value_of_not_isNegative number.isNegative_abs,
    magnitude_eq_of_magnitudeBits_eq number.magnitudeBits_abs]

theorem nearest_eq_abs_iff
    {ratio : Ratio} :
    nearest ratio = number.abs ↔ nearestBits ratio = number.magnitudeBits := by
  constructor
  · intro heq
    rw [← magnitudeBits_nearest, heq, magnitudeBits_abs]
  · intro heq
    rw [nearest, heq, abs]

theorem magnitude_pos
    (hzero : number.isZero = false) :
    0 < number.magnitude.value := by
  have hbits : number.magnitudeBits ≠ 0 := of_decide_eq_false hzero
  have hnone : (ofMagnitudeBits 0).magnitudeBits = 0 :=
    magnitudeBits_ofMagnitudeBits (by decide)
  have hlt : (ofMagnitudeBits 0).magnitude.value < number.magnitude.value :=
    value_magnitude_lt (by omega)
  exact (value_nonneg _).trans_lt hlt

/-! ## How far numbers are apart -/

theorem cast_significand_le (number : Binary64) :
    (number.significand : ℚ) ≤ 2 ^ 53 - 1 := by
  have hlt := significand_lt number
  have hcast : ((number.significand + 1 : ℕ) : ℚ) ≤ (2 * fractionCount : ℕ) :=
    Nat.cast_le.mpr hlt
  have hcount : ((2 * fractionCount : ℕ) : ℚ) = 2 ^ 53 := by norm_num [fractionCount]
  rw [hcount, Nat.cast_succ] at hcast
  linarith

theorem magnitude_div_le_unit (number : Binary64) :
    number.magnitude.value / 2 ^ 53 ≤ 2 ^ number.exponent := by
  rw [value_magnitude, div_le_iff₀ (by norm_num), mul_comm]
  have hle := cast_significand_le number
  exact mul_le_mul_of_nonneg_left (by linarith) (zpow_pos two_pos _).le

/-- A number in no smaller unit is a unit away, or more. -/
theorem magnitude_div_le_of_exponent_le
    (hne : other.value ≠ number.magnitude.value)
    (hexponent : number.exponent ≤ other.exponent) :
    number.magnitude.value / 2 ^ 53 ≤ |number.magnitude.value - other.value| := by
  obtain ⟨count, hcount⟩ := exists_value_eq_mul hexponent
  have hpos : (0 : ℚ) < 2 ^ number.exponent := zpow_pos two_pos _
  have hother : (number.significand : ℤ) - count ≠ 0 := by
    rw [sub_ne_zero]
    rintro rfl
    apply hne
    rw [hcount, value_magnitude, Int.cast_natCast]
  have hone : (1 : ℚ) ≤ |(number.significand : ℚ) - count| := by
    exact_mod_cast Int.one_le_abs hother
  calc number.magnitude.value / 2 ^ 53
      ≤ 2 ^ number.exponent := magnitude_div_le_unit number
    _ ≤ |(number.significand : ℚ) - count| * 2 ^ number.exponent :=
        le_mul_of_one_le_left hpos.le hone
    _ = |number.magnitude.value - other.value| := by
        rw [hcount, value_magnitude, ← sub_mul, abs_mul, abs_of_pos hpos]

/-- A number in a smaller unit is half a unit away, or more: there the significand has
a leading one. -/
theorem magnitude_div_le_of_exponent_lt
    (hexponent : other.exponent < number.exponent) :
    number.magnitude.value / 2 ^ 53 ≤ |number.magnitude.value - other.value| := by
  have hpos : (0 : ℚ) < 2 ^ (number.exponent - 1) := zpow_pos two_pos _
  have hleads : (2 : ℚ) ^ 52 ≤ number.significand := by
    have hleast := least_le_exponent other
    have hle := (exponent_eq_or_le_significand number).resolve_left (by omega)
    rw [← zpow_natCast, Nat.cast_ofNat, ← cast_fractionCount]
    exact Nat.cast_le.mpr hle
  have hother : other.value ≤ (2 ^ 53 - 1) * 2 ^ (number.exponent - 1) := by
    calc other.value
        ≤ other.significand * 2 ^ other.exponent := by
          rw [← value_magnitude]
          exact value_le_magnitude other
      _ ≤ (2 ^ 53 - 1) * 2 ^ (number.exponent - 1) :=
          mul_le_mul (cast_significand_le other)
            (zpow_le_zpow_right₀ one_le_two (by omega)) (zpow_pos two_pos _).le (by norm_num)
  have hown : number.magnitude.value =
      2 * number.significand * 2 ^ (number.exponent - 1) := by
    rw [value_magnitude, mul_right_comm, ← zpow_one_add₀ two_ne_zero, add_sub_cancel, mul_comm]
  have hscaled : number.magnitude.value / 2 ^ 53 ≤
      (2 * number.significand - (2 ^ 53 - 1)) * 2 ^ (number.exponent - 1) := by
    rw [hown, mul_div_right_comm]
    apply mul_le_mul_of_nonneg_right _ hpos.le
    rw [div_le_iff₀ (by norm_num)]
    linarith
  calc number.magnitude.value / 2 ^ 53
      ≤ (2 * number.significand - (2 ^ 53 - 1)) * 2 ^ (number.exponent - 1) := hscaled
    _ ≤ number.magnitude.value - other.value := by
        rw [hown, sub_mul]
        exact sub_le_sub_left hother _
    _ ≤ |number.magnitude.value - other.value| := le_abs_self _

/-- Two numbers differ by a fixed part of either, or more. -/
theorem magnitude_div_le
    (hne : other.value ≠ number.magnitude.value) :
    number.magnitude.value / 2 ^ 53 ≤ |number.magnitude.value - other.value| := by
  by_cases hexponent : number.exponent ≤ other.exponent
  · exact magnitude_div_le_of_exponent_le hne hexponent
  · exact magnitude_div_le_of_exponent_lt (Int.lt_of_not_ge hexponent)

/-- No finite number comes closer to infinity than half a unit. -/
theorem magnitude_add_lt_overflow
    (hfinite : number.isFinite = true) :
    number.magnitude.value + number.magnitude.value / 2 ^ 54 < overflow := by
  have hpos : (0 : ℚ) < 2 ^ (971 : ℤ) := zpow_pos two_pos _
  have hexponent : number.exponent ≤ 971 := by
    have hbits := magnitudeBits_eq_exponent number
    have hleads := exponent_eq_or_le_significand number
    rw [isFinite, decide_eq_true_eq] at hfinite
    unfold infinityBits fractionCount at *
    omega
  have hmagnitude : number.magnitude.value ≤ (2 ^ 53 - 1) * 2 ^ (971 : ℤ) := by
    rw [value_magnitude]
    exact mul_le_mul (cast_significand_le number) (zpow_le_zpow_right₀ one_le_two hexponent)
      (zpow_pos two_pos _).le (by norm_num)
  have hmiddle : overflow = (2 * fractionCount - 1 / 2) * 2 ^ (971 : ℤ) := by
    rw [← overflow_div_unit, div_mul_cancel₀ _ hpos.ne']
  calc number.magnitude.value + number.magnitude.value / 2 ^ 54
      = number.magnitude.value * (1 + 1 / 2 ^ 54) := by ring
    _ ≤ (2 ^ 53 - 1) * 2 ^ (971 : ℤ) * (1 + 1 / 2 ^ 54) :=
        mul_le_mul_of_nonneg_right hmagnitude (by norm_num)
    _ = (2 ^ 53 - 1) * (1 + 1 / 2 ^ 54) * 2 ^ (971 : ℤ) := mul_right_comm _ _ _
    _ < (2 * fractionCount - 1 / 2) * 2 ^ (971 : ℤ) := by
        apply mul_lt_mul_of_pos_right _ hpos
        norm_num [fractionCount]
    _ = overflow := hmiddle.symm

/-- What is close enough to a finite number is rounded to it. -/
theorem nearest_eq_abs_of_close
    {ratio : Ratio}
    (hfinite : number.isFinite = true)
    (hpos : 0 < ratio.denominator)
    (hclose : |ratio.value - number.magnitude.value| < number.magnitude.value / 2 ^ 54) :
    nearest ratio = number.abs := by
  have hnearest := isNearestTo_nearest hpos
  have hbound := magnitude_add_lt_overflow hfinite
  have hself : number.abs.isFinite = true := by
    rw [isFinite, magnitudeBits_abs]
    exact hfinite
  have hrational : ratio.value < overflow := by
    have hle := (abs_lt.mp hclose).2
    linarith
  have hcloser := hnearest.closest (hnearest.isFinite hrational) number.abs hself
  rw [value_abs] at hcloser
  have hvalue : (nearest ratio).value = number.abs.value := by
    rw [value_abs]
    by_contra hne
    -- another number is no closer to the ratio, but twice as far from the magnitude
    have hapart := magnitude_div_le hne
    have htriangle := abs_sub_le number.magnitude.value ratio.value (nearest ratio).value
    rw [abs_sub_comm number.magnitude.value ratio.value] at htriangle
    have hhalves : number.magnitude.value / 2 ^ 53 = 2 * (number.magnitude.value / 2 ^ 54) := by
      ring
    linarith
  apply eq_of_magnitudeBits_eq (hnearest.isNegative.trans number.isNegative_abs.symm)
  rcases lt_trichotomy (nearest ratio).magnitudeBits number.abs.magnitudeBits with hlt | heq | hgt
  · exact absurd hvalue (value_lt_value hnearest.isNegative number.isNegative_abs hlt).ne
  · exact heq
  · exact absurd hvalue (value_lt_value number.isNegative_abs hnearest.isNegative hgt).ne'

end Binary64

namespace Decimal

open Binary64

variable {number : Binary64} {decimal lower upper : Decimal}

/-- A decimal reads back as the number if the number without its sign is the one nearest
to it. -/
theorem readsBack_iff :
    readsBack number decimal = true ↔ number.abs.IsNearestTo decimal.value := by
  have hnearest := isNearestTo_nearest decimal.ratio_denominator_pos
  rw [value_ratio] at hnearest
  rw [readsBack, beq_iff_eq, ← nearest_eq_abs_iff]
  constructor
  · intro heq
    rwa [heq] at hnearest
  · exact hnearest.unique

/-- Between two decimals of a number there are no others than its own. -/
theorem readsBack_of_between
    (hlower : readsBack number lower = true)
    (hupper : readsBack number upper = true)
    (hle : lower.value ≤ decimal.value)
    (hge : decimal.value ≤ upper.value) :
    readsBack number decimal = true := by
  rw [← value_ratio, ← value_ratio] at hle hge
  rw [readsBack, beq_iff_eq] at hlower hupper ⊢
  have hfrom := nearestBits_mono lower.ratio_denominator_pos decimal.ratio_denominator_pos hle
  have hto := nearestBits_mono decimal.ratio_denominator_pos upper.ratio_denominator_pos hge
  omega

theorem readsBack_of_close
    (hfinite : number.isFinite = true)
    (hclose : |decimal.value - number.magnitude.value| < number.magnitude.value / 2 ^ 54) :
    readsBack number decimal = true := by
  rw [readsBack, beq_iff_eq, ← nearest_eq_abs_iff]
  apply nearest_eq_abs_of_close hfinite decimal.ratio_denominator_pos
  rwa [value_ratio]

/-- A decimal of a number other than zero is not zero. -/
theorem value_pos_of_readsBack
    (hzero : number.isZero = false)
    (hreads : readsBack number decimal = true) :
    0 < decimal.value := by
  have hnonneg := decimal.ratio.value_nonneg
  rw [value_ratio] at hnonneg
  apply lt_of_le_of_ne hnonneg
  intro heq
  rw [← value_ratio, eq_comm, value_eq_zero_iff decimal.ratio_denominator_pos] at heq
  rw [readsBack, nearestBits, if_pos heq, beq_iff_eq] at hreads
  exact of_decide_eq_false hzero hreads.symm

end Decimal

end LoxLexer

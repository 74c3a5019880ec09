import LoxLexer.Decimal.Shortest
import LoxLexer.Proofs.Decimal.Rounding

/-!
# Reading numbers back

A finite number is written as a decimal that need not be its exact value.  The
number nearest to that decimal is the number itself, and with the sign beside
it both zeros are read back as well (`nearestTo_shortestValue`).
-/

namespace LoxLexer

namespace Decimal

/-- The rational that a decimal stands for. -/
def value (decimal : Decimal) : ℚ := decimal.coefficient * 10 ^ decimal.exponent

theorem value_ratio (decimal : Decimal) : decimal.ratio.value = decimal.value := by
  rw [ratio, Ratio.value_scaled, Nat.cast_ofNat, value]

theorem ratio_denominator_pos (decimal : Decimal) : 0 < decimal.ratio.denominator :=
  Ratio.scaleUp_pos Nat.one_pos (by decide) _

theorem value_withoutTrailingZeros (decimal : Decimal) :
    decimal.withoutTrailingZeros.value = decimal.value := by
  induction decimal using withoutTrailingZeros.induct with
  | case1 decimal hzero ih =>
      have hcoefficient : (decimal.coefficient : ℚ) = (decimal.coefficient / 10 : ℕ) * 10 := by
        exact_mod_cast (Nat.div_mul_cancel (Nat.dvd_of_mod_eq_zero hzero.2)).symm
      rw [withoutTrailingZeros, if_pos hzero, ih, value, value, hcoefficient,
        zpow_add_one₀ (by norm_num)]
      ring
  | case2 decimal hkept => rw [withoutTrailingZeros, if_neg hkept]

/-- The exact decimal of a number has its value. -/
theorem value_exact (number : Binary64) : (exact number).value = number.magnitude.value := by
  rw [Binary64.value_magnitude, exact]
  split
  · rename_i hpositive
    obtain ⟨count, hcount⟩ := Int.eq_ofNat_of_zero_le hpositive
    rw [value, hcount, Ratio.cast_scaleUp]
    simp
  · rename_i hnegative
    obtain ⟨count, hcount⟩ := Int.eq_ofNat_of_zero_le (by omega : 0 ≤ -number.exponent)
    have hexponent : number.exponent = -(count : ℤ) := by omega
    have hten : (10 : ℚ) ^ count = 2 ^ count * 5 ^ count := by
      rw [← mul_pow]
      norm_num
    rw [value, hcount, Ratio.cast_scaleUp, hexponent, zpow_neg, zpow_neg, zpow_natCast,
      zpow_natCast, hten, Int.toNat_natCast, Nat.cast_ofNat]
    field_simp

/-- To read back depends on the value alone. -/
theorem readsBack_congr
    {number : Binary64} {decimal other : Decimal}
    (hvalue : other.value = decimal.value)
    (hreads : readsBack number decimal = true) :
    readsBack number other = true := by
  rw [readsBack, beq_iff_eq] at hreads ⊢
  rw [← hreads]
  apply Binary64.nearestBits_congr other.ratio_denominator_pos decimal.ratio_denominator_pos
  rw [value_ratio, value_ratio, hvalue]

theorem readsBack_exact
    {number : Binary64}
    (hfinite : number.isFinite = true) :
    readsBack number (exact number) = true := by
  rw [readsBack, beq_iff_eq, ← Binary64.nearestBits_magnitude hfinite]
  apply Binary64.nearestBits_congr (ratio_denominator_pos _)
    (Binary64.magnitude_denominator_pos number)
  rw [value_ratio, value_exact]

/-- The shortest decimal of a finite number reads back as the number. -/
theorem readsBack_shortest
    {number : Binary64}
    (hfinite : number.isFinite = true)
    (tie : Tie) :
    readsBack number (shortest tie number) = true := by
  unfold shortest
  dsimp only
  apply readsBack_congr (value_withoutTrailingZeros _)
  generalize hfound : (List.range' 1 17).findSome? _ = found
  cases found with
  | none => exact readsBack_exact hfinite
  | some decimal =>
      obtain ⟨count, -, hgrid⟩ := List.exists_of_findSome?_eq_some hfound
      exact readsBack_of_onGrid?_eq_some hgrid

/-- The rational that is written for a finite number. -/
def shortestValue (tie : Tie) (number : Binary64) : ℚ :=
  if number.isZero then 0 else (shortest tie number).value

theorem shortest_coefficient_ne_zero
    {number : Binary64}
    (hfinite : number.isFinite = true)
    (hzero : number.isZero = false)
    (tie : Tie) :
    (shortest tie number).coefficient ≠ 0 := by
  intro hcoefficient
  have hreads := readsBack_shortest hfinite tie
  have hnumerator : (shortest tie number).ratio.numerator = 0 := by
    rw [ratio, Ratio.scaled, Ratio.scaleUp, hcoefficient, Nat.zero_mul]
  rw [readsBack, Binary64.nearestBits, if_pos hnumerator, beq_iff_eq] at hreads
  exact of_decide_eq_false hzero hreads.symm

end Decimal

namespace Binary64

/-- The number nearest to a rational, given by its sign and its magnitude; the
sign is kept where the magnitude is rounded to zero. -/
def nearestTo (negative : Bool) (magnitude : ℚ) : Binary64 :=
  ⟨UInt64.ofNat ((if negative then signWeight else 0) +
    nearestBits ⟨magnitude.num.natAbs, magnitude.den⟩)⟩

theorem nearestBits_num_den
    {ratio : Ratio}
    (hpos : 0 < ratio.denominator) :
    nearestBits ⟨ratio.value.num.natAbs, ratio.value.den⟩ = nearestBits ratio := by
  apply nearestBits_congr ratio.value.den_pos hpos
  have hnum : 0 ≤ ratio.value.num := Rat.num_nonneg.mpr ratio.value_nonneg
  have hcast : ((ratio.value.num.natAbs : ℕ) : ℚ) = ratio.value.num := by
    rw [← Int.cast_natCast, Int.natAbs_of_nonneg hnum]
  rw [Ratio.value, hcast, Rat.num_div_den]

theorem isInfinite_or_isFinite
    {number : Binary64}
    (hnumber : number.isNaN = false) :
    number.isInfinite = true ∨ number.isFinite = true := by
  simp only [isNaN, isInfinite, isFinite, decide_eq_false_iff_not, decide_eq_true_eq] at *
  omega

/-- A number is its sign and its magnitude bits. -/
theorem bits_eq (number : Binary64) :
    (if number.isNegative then signWeight else 0) + number.magnitudeBits =
      number.bits.toNat := by
  have hlt := number.bits.toNat_lt
  unfold isNegative magnitudeBits signWeight
  split
  · rename_i hnegative
    have hle := of_decide_eq_true hnegative
    omega
  · rename_i hpositive
    rw [decide_eq_true_eq] at hpositive
    omega

/-- A finite number is the number nearest to what is written for it. -/
theorem nearestTo_shortestValue
    {number : Binary64}
    (hfinite : number.isFinite = true)
    (tie : Tie) :
    nearestTo number.isNegative (Decimal.shortestValue tie number) = number := by
  have hbits : nearestBits ⟨(Decimal.shortestValue tie number).num.natAbs,
      (Decimal.shortestValue tie number).den⟩ = number.magnitudeBits := by
    unfold Decimal.shortestValue
    split
    · rename_i hzero
      exact (of_decide_eq_true hzero).symm
    · have hreads := Decimal.readsBack_shortest hfinite tie
      rw [Decimal.readsBack, beq_iff_eq] at hreads
      rw [← Decimal.value_ratio, nearestBits_num_den (Decimal.ratio_denominator_pos _), hreads]
  rw [nearestTo, hbits, bits_eq, UInt64.ofNat_toNat]

end Binary64

end LoxLexer

import LoxLexer.Decimal.Binary64
import Mathlib.Data.Int.Log
import Mathlib.Data.Rat.Floor
import Mathlib.Tactic.FieldSimp
import Mathlib.Tactic.Linarith
import Mathlib.Tactic.NormNum

/-!
# Rounding by value

A ratio is not reduced, and yet rounding depends on nothing but the rational
that it stands for: the natural nearest to it, a tie going to the even one, is
unique (`IsNearest.unique`), and the power of two that it reaches is its binary
logarithm (`floorLog2_eq_log`).

So the number nearest to the exact magnitude of a finite number is that number
(`nearestBits_magnitude`), however the magnitude is written as a ratio.
-/

namespace LoxLexer

/-! ## Ratios and rationals -/

namespace Ratio

variable {ratio other : Ratio}

/-- The rational that a ratio stands for. -/
def value (ratio : Ratio) : ℚ := ratio.numerator / ratio.denominator

theorem cast_scaleUp (number base : ℕ) (exponent : ℤ) :
    (scaleUp number base exponent : ℚ) = number * (base : ℚ) ^ exponent.toNat := by
  rw [scaleUp, Nat.pow_eq, Nat.cast_mul, Nat.cast_pow]

theorem pow_toNat_div_pow_toNat (base : ℚ) (exponent : ℤ) :
    base ^ exponent.toNat / base ^ (-exponent).toNat = base ^ exponent := by
  obtain ⟨count, rfl | rfl⟩ := exponent.eq_nat_or_neg
  · simp
  · simp

theorem scaleUp_pos
    {number base : ℕ}
    (hnumber : 0 < number)
    (hbase : 0 < base)
    (exponent : ℤ) :
    0 < scaleUp number base exponent :=
  Nat.mul_pos hnumber (Nat.pow_pos hbase)

theorem value_scaled (number base : ℕ) (exponent : ℤ) :
    (scaled number base exponent).value = number * (base : ℚ) ^ exponent := by
  rw [value, scaled, cast_scaleUp, cast_scaleUp, Nat.cast_one, one_mul, mul_div_assoc,
    pow_toNat_div_pow_toNat]

theorem value_unscale (ratio : Ratio) (base : ℕ) (exponent : ℤ) :
    (ratio.unscale base exponent).value = ratio.value / (base : ℚ) ^ exponent := by
  rw [value, unscale, cast_scaleUp, cast_scaleUp, value, ← pow_toNat_div_pow_toNat,
    div_div_div_eq]

theorem value_eq_zero_iff
    (hpos : 0 < ratio.denominator) :
    ratio.value = 0 ↔ ratio.numerator = 0 := by
  have hne : (ratio.denominator : ℚ) ≠ 0 := Nat.cast_ne_zero.mpr (Nat.ne_of_gt hpos)
  rw [value, div_eq_zero_iff, Nat.cast_eq_zero, or_iff_left hne]

theorem value_nonneg (ratio : Ratio) : 0 ≤ ratio.value :=
  div_nonneg (Nat.cast_nonneg _) (Nat.cast_nonneg _)

theorem value_mul_denominator
    (hpos : 0 < ratio.denominator) :
    ratio.value * ratio.denominator = ratio.numerator :=
  div_mul_cancel₀ _ (Nat.cast_ne_zero.mpr (Nat.ne_of_gt hpos))

/-! ## The nearest natural -/

/-- A natural nearest to a rational; of two that are equally near, the even one. -/
structure IsNearest (value : ℚ) (number : ℕ) : Prop where
  le : (number : ℚ) ≤ value + 1 / 2
  ge : value ≤ number + 1 / 2
  even : (number : ℚ) = value + 1 / 2 ∨ value = number + 1 / 2 → number % 2 = 0

theorem IsNearest.le_of_isNearest
    {value : ℚ} {number other : ℕ}
    (hnumber : IsNearest value number)
    (hother : IsNearest value other) :
    number ≤ other := by
  by_contra hlt
  -- the other one is then the next, and the value lies in the middle
  have hnext : (other : ℚ) + 1 ≤ number := by exact_mod_cast Nat.lt_of_not_le hlt
  have hle := hnumber.le
  have hge := hother.ge
  have heven := hnumber.even (Or.inl (by linarith))
  have heven' := hother.even (Or.inr (by linarith))
  have hsucc : (number : ℚ) = ((other + 1 : ℕ) : ℚ) := by
    rw [Nat.cast_succ]
    linarith
  have hnumbers : number = other + 1 := by exact_mod_cast hsucc
  omega

/-- There is one nearest natural. -/
theorem IsNearest.unique
    {value : ℚ} {number other : ℕ}
    (hnumber : IsNearest value number)
    (hother : IsNearest value other) :
    number = other :=
  Nat.le_antisymm (hnumber.le_of_isNearest hother) (hother.le_of_isNearest hnumber)

theorem isNearest_natCast (number : ℕ) : IsNearest (number : ℚ) number := by
  refine ⟨by linarith, by linarith, ?_⟩
  rintro (htie | htie)
  · linarith
  · linarith

theorem roundHalfEven_even_of_tie
    (hpos : 0 < ratio.denominator)
    (htie : 2 * (ratio.roundHalfEven * ratio.denominator) =
        2 * ratio.numerator + ratio.denominator ∨
      2 * ratio.numerator =
        2 * (ratio.roundHalfEven * ratio.denominator) + ratio.denominator) :
    ratio.roundHalfEven % 2 = 0 := by
  apply roundHalfEven_even_of_middle
  have hlow := ratio.floor_mul_le
  have hhigh := lt_floor_mul_add hpos
  have hsucc : (ratio.floor + 1) * ratio.denominator =
      ratio.floor * ratio.denominator + ratio.denominator :=
    Nat.succ_mul _ _
  have hmiddle : (2 * ratio.floor + 1) * ratio.denominator =
      2 * (ratio.floor * ratio.denominator) + ratio.denominator := by
    rw [Nat.succ_mul, Nat.mul_assoc]
  rw [compareMiddle, Nat.compare_eq_eq, hmiddle]
  have hrounded : ratio.roundHalfEven = ratio.floor ∨
      ratio.roundHalfEven = ratio.floor + 1 := by
    unfold roundHalfEven
    split
    · exact Or.inl rfl
    · exact Or.inr rfl
    · split
      · exact Or.inl rfl
      · exact Or.inr rfl
  rcases hrounded with heq | heq
  · rw [heq] at htie
    omega
  · rw [heq, hsucc] at htie
    omega

theorem isNearest_roundHalfEven
    (hpos : 0 < ratio.denominator) :
    IsNearest ratio.value ratio.roundHalfEven := by
  have hden : (0 : ℚ) < ratio.denominator := Nat.cast_pos.mpr hpos
  have hvalue := value_mul_denominator hpos
  obtain ⟨hlow, hhigh⟩ := roundHalfEven_near hpos
  have hlow' : 2 * ((ratio.roundHalfEven : ℚ) * ratio.denominator) ≤
      2 * ratio.numerator + ratio.denominator := by exact_mod_cast hlow
  have hhigh' : 2 * (ratio.numerator : ℚ) ≤
      2 * (ratio.roundHalfEven * ratio.denominator) + ratio.denominator := by
    exact_mod_cast hhigh
  rw [← hvalue] at hlow' hhigh'
  refine ⟨?_, ?_, ?_⟩
  · apply le_of_mul_le_mul_right _ hden
    linarith
  · apply le_of_mul_le_mul_right _ hden
    linarith
  · intro htie
    apply roundHalfEven_even_of_tie hpos
    rcases htie with heq | heq
    · left
      have hscaled : 2 * ((ratio.roundHalfEven : ℚ) * ratio.denominator) =
          2 * ratio.numerator + ratio.denominator := by
        rw [heq, ← hvalue]
        ring
      exact_mod_cast hscaled
    · right
      have hscaled : 2 * (ratio.numerator : ℚ) =
          2 * (ratio.roundHalfEven * ratio.denominator) + ratio.denominator := by
        rw [← hvalue, heq]
        ring
      exact_mod_cast hscaled

/-! ## The power of two that is reached -/

theorem one_le_value_iff
    (hpos : 0 < ratio.denominator) :
    1 ≤ ratio.value ↔ ratio.denominator ≤ ratio.numerator := by
  rw [value, one_le_div (Nat.cast_pos.mpr hpos), Nat.cast_le]

theorem two_pow_log2_bounds
    {number : ℕ}
    (hnumber : number ≠ 0) :
    (2 : ℚ) ^ (number.log2 : ℤ) ≤ number ∧ (number : ℚ) < 2 ^ ((number.log2 : ℤ) + 1) := by
  constructor
  · rw [zpow_natCast]
    exact_mod_cast Nat.log2_self_le hnumber
  · rw [← Nat.cast_succ, zpow_natCast]
    exact_mod_cast Nat.lt_log2_self

/-- The lengths of numerator and denominator give the logarithm up to one. -/
theorem value_bounds
    (hnumerator : ratio.numerator ≠ 0)
    (hpos : 0 < ratio.denominator) :
    (2 : ℚ) ^ ((ratio.numerator.log2 : ℤ) - ratio.denominator.log2 - 1) < ratio.value ∧
      ratio.value < 2 ^ ((ratio.numerator.log2 : ℤ) - ratio.denominator.log2 + 1) := by
  have hden : (0 : ℚ) < ratio.denominator := Nat.cast_pos.mpr hpos
  obtain ⟨hlow, hhigh⟩ := two_pow_log2_bounds hnumerator
  obtain ⟨hlow', hhigh'⟩ := two_pow_log2_bounds (Nat.ne_of_gt hpos)
  have htwo : (2 : ℚ) ≠ 0 := two_ne_zero
  constructor
  · rw [value, lt_div_iff₀ hden]
    calc (2 : ℚ) ^ ((ratio.numerator.log2 : ℤ) - ratio.denominator.log2 - 1) *
          ratio.denominator
        < 2 ^ ((ratio.numerator.log2 : ℤ) - ratio.denominator.log2 - 1) *
          2 ^ ((ratio.denominator.log2 : ℤ) + 1) :=
          mul_lt_mul_of_pos_left hhigh' (zpow_pos two_pos _)
      _ = 2 ^ (ratio.numerator.log2 : ℤ) := by
          rw [← zpow_add₀ htwo]
          congr 1
          omega
      _ ≤ ratio.numerator := hlow
  · rw [value, div_lt_iff₀ hden]
    calc (ratio.numerator : ℚ)
        < 2 ^ ((ratio.numerator.log2 : ℤ) + 1) := hhigh
      _ = 2 ^ ((ratio.numerator.log2 : ℤ) - ratio.denominator.log2 + 1) *
          2 ^ (ratio.denominator.log2 : ℤ) := by
          rw [← zpow_add₀ htwo]
          congr 1
          omega
      _ ≤ 2 ^ ((ratio.numerator.log2 : ℤ) - ratio.denominator.log2 + 1) *
          ratio.denominator :=
          mul_le_mul_of_nonneg_left hlow' (zpow_pos two_pos _).le

theorem log_eq_of_bounds
    {value : ℚ} {exponent : ℤ}
    (hlow : (2 : ℚ) ^ exponent ≤ value)
    (hhigh : value < 2 ^ (exponent + 1)) :
    Int.log 2 value = exponent := by
  have hpos : 0 < value := lt_of_lt_of_le (zpow_pos two_pos _) hlow
  have hle := (Int.zpow_le_iff_le_log Nat.one_lt_two hpos).mp (by exact_mod_cast hlow)
  have hlt := (Int.lt_zpow_iff_log_lt Nat.one_lt_two hpos).mp (by exact_mod_cast hhigh)
  omega

/-- The power of two that a ratio reaches is its logarithm. -/
theorem floorLog2_eq_log
    (hnumerator : ratio.numerator ≠ 0)
    (hpos : 0 < ratio.denominator) :
    ratio.floorLog2 = Int.log 2 ratio.value := by
  obtain ⟨hlow, hhigh⟩ := value_bounds hnumerator hpos
  unfold floorLog2
  dsimp only
  generalize (ratio.numerator.log2 : ℤ) - ratio.denominator.log2 = guess at hlow hhigh ⊢
  have hunit : 0 < (ratio.unscale 2 guess).denominator := scaleUp_pos hpos two_pos guess
  have hreached : (ratio.unscale 2 guess).denominator ≤ (ratio.unscale 2 guess).numerator ↔
      (2 : ℚ) ^ guess ≤ ratio.value := by
    rw [← one_le_value_iff hunit, value_unscale, Nat.cast_ofNat,
      one_le_div (zpow_pos two_pos _)]
  split
  · rename_i hle
    exact (log_eq_of_bounds (hreached.mp hle) hhigh).symm
  · rename_i hnot
    rw [hreached, not_le] at hnot
    symm
    apply log_eq_of_bounds hlow.le
    rwa [sub_add_cancel]

end Ratio

/-! ## The nearest number -/

namespace Binary64

open Ratio

theorem unscale_denominator_pos
    {ratio : Ratio}
    (hpos : 0 < ratio.denominator)
    (exponent : ℤ) :
    0 < (ratio.unscale 2 exponent).denominator :=
  scaleUp_pos hpos two_pos exponent

/-- Rounding depends on the value alone. -/
theorem nearestBits_congr
    {ratio other : Ratio}
    (hpos : 0 < ratio.denominator)
    (hother : 0 < other.denominator)
    (hvalue : ratio.value = other.value) :
    nearestBits ratio = nearestBits other := by
  by_cases hzero : ratio.numerator = 0
  · have hzero' : other.numerator = 0 := by
      rw [← value_eq_zero_iff hother, ← hvalue, value_eq_zero_iff hpos]
      exact hzero
    rw [nearestBits, nearestBits, if_pos hzero, if_pos hzero']
  · have hzero' : other.numerator ≠ 0 := by
      rw [ne_eq, ← value_eq_zero_iff hother, ← hvalue, value_eq_zero_iff hpos]
      exact hzero
    have hunit : unitExponent ratio = unitExponent other := by
      rw [unitExponent, unitExponent, floorLog2_eq_log hzero hpos,
        floorLog2_eq_log hzero' hother, hvalue]
    have hrounded : (ratio.unscale 2 (unitExponent other)).roundHalfEven =
        (other.unscale 2 (unitExponent other)).roundHalfEven := by
      have hnearest := isNearest_roundHalfEven
        (unscale_denominator_pos hpos (unitExponent other))
      have hnearest' := isNearest_roundHalfEven
        (unscale_denominator_pos hother (unitExponent other))
      rw [value_unscale] at hnearest hnearest'
      rw [← hvalue] at hnearest'
      exact hnearest.unique hnearest'
    rw [nearestBits, nearestBits, if_neg hzero, if_neg hzero']
    dsimp only
    rw [hunit, hrounded]

/-- A ratio that is a whole number of the units in which it is rounded stays as
it is. -/
theorem nearestBits_of_value_eq
    {ratio : Ratio} {number : ℕ} {exponent : ℤ}
    (hpos : 0 < ratio.denominator)
    (hvalue : ratio.value = number * 2 ^ exponent)
    (hnumber : number ≠ 0)
    (hunit : max (-1074) (Int.log 2 ratio.value - 52) = exponent) :
    nearestBits ratio = min infinityBits ((exponent + 1074).toNat * fractionCount + number) := by
  have hpower : (2 : ℚ) ^ exponent ≠ 0 := zpow_ne_zero exponent two_ne_zero
  have hnumerator : ratio.numerator ≠ 0 := by
    rw [ne_eq, ← value_eq_zero_iff hpos, hvalue]
    exact mul_ne_zero (Nat.cast_ne_zero.mpr hnumber) hpower
  have hexponent : unitExponent ratio = exponent := by
    rw [unitExponent, floorLog2_eq_log hnumerator hpos, hunit]
  have hrounded : (ratio.unscale 2 exponent).roundHalfEven = number := by
    have hnearest := isNearest_roundHalfEven (unscale_denominator_pos hpos exponent)
    rw [value_unscale, hvalue, Nat.cast_ofNat, mul_div_cancel_right₀ _ hpower] at hnearest
    exact hnearest.unique (isNearest_natCast number)
  rw [nearestBits, if_neg hnumerator]
  dsimp only
  rw [hexponent, hrounded]

variable {number : Binary64}

theorem magnitude_denominator_pos (number : Binary64) : 0 < number.magnitude.denominator :=
  scaleUp_pos Nat.one_pos two_pos _

theorem value_magnitude (number : Binary64) :
    number.magnitude.value = number.significand * 2 ^ number.exponent := by
  rw [magnitude, value_scaled, Nat.cast_ofNat]

theorem magnitudeBits_eq (number : Binary64) :
    number.magnitudeBits = number.exponentField * fractionCount + number.fractionField := by
  rw [exponentField, fractionField, Nat.mul_comm]
  exact (Nat.div_add_mod _ _).symm

theorem fractionField_lt (number : Binary64) : number.fractionField < fractionCount :=
  Nat.mod_lt _ (by decide)

/-- The units in which a finite number is rounded are those of its significand. -/
theorem unit_magnitude
    (hzero : number.significand ≠ 0) :
    max (-1074) (Int.log 2 number.magnitude.value - 52) = number.exponent := by
  have hcount : (fractionCount : ℚ) = 2 ^ (52 : ℤ) := by norm_num [fractionCount]
  have hpower : (0 : ℚ) < 2 ^ number.exponent := zpow_pos two_pos _
  have hlt := number.fractionField_lt
  have hvalue := value_magnitude number
  by_cases hfield : number.exponentField = 0
  · -- a significand without a leading one is below the least such power of two
    have hsignificand : number.significand = number.fractionField := by
      rw [significand, if_pos hfield]
    have hexponent : number.exponent = -1074 := by rw [exponent, if_pos hfield]
    have hbelow : number.magnitude.value < 2 ^ (-1022 : ℤ) := by
      rw [hvalue, hexponent, hsignificand]
      calc (number.fractionField : ℚ) * 2 ^ (-1074 : ℤ)
          < fractionCount * 2 ^ (-1074 : ℤ) :=
            mul_lt_mul_of_pos_right (Nat.cast_lt.mpr hlt) (zpow_pos two_pos _)
        _ = 2 ^ (-1022 : ℤ) := by
            rw [hcount, ← zpow_add₀ two_ne_zero]
            norm_num
    have hpos : 0 < number.magnitude.value := by
      rw [hvalue]
      exact mul_pos (Nat.cast_pos.mpr (Nat.pos_of_ne_zero hzero)) hpower
    have hlog := (Int.lt_zpow_iff_log_lt Nat.one_lt_two hpos).mp (by exact_mod_cast hbelow)
    rw [hexponent]
    omega
  · have hsignificand : number.significand = fractionCount + number.fractionField := by
      rw [significand, if_neg hfield]
    have hexponent : number.exponent = number.exponentField - 1075 := by
      rw [exponent, if_neg hfield]
    have hlog : Int.log 2 number.magnitude.value = number.exponent + 52 := by
      apply log_eq_of_bounds
      · rw [hvalue, zpow_add₀ two_ne_zero, mul_comm, ← hcount]
        apply mul_le_mul_of_nonneg_right _ hpower.le
        rw [hsignificand]
        exact_mod_cast Nat.le_add_right _ _
      · have hdouble : (2 : ℚ) ^ (number.exponent + 52 + 1) =
            (2 * fractionCount) * 2 ^ number.exponent := by
          rw [hcount, zpow_add₀ two_ne_zero, zpow_add₀ two_ne_zero]
          ring
        rw [hvalue, hdouble]
        apply mul_lt_mul_of_pos_right _ hpower
        rw [hsignificand]
        have hlt' : (number.fractionField : ℚ) < fractionCount := Nat.cast_lt.mpr hlt
        push_cast
        linarith
    omega

/-- The number nearest to the magnitude of a finite number is that number, but
for its sign. -/
theorem nearestBits_magnitude
    (hfinite : number.isFinite = true) :
    nearestBits number.magnitude = number.magnitudeBits := by
  have hbits : number.magnitudeBits < infinityBits := of_decide_eq_true hfinite
  have hparts := magnitudeBits_eq number
  by_cases hzero : number.significand = 0
  · have hnumerator : number.magnitude.numerator = 0 := by
      rw [← value_eq_zero_iff (magnitude_denominator_pos number), value_magnitude, hzero,
        Nat.cast_zero, zero_mul]
    have hfields : number.exponentField = 0 ∧ number.fractionField = 0 := by
      unfold significand at hzero
      split at hzero
      · rename_i hfield
        exact ⟨hfield, hzero⟩
      · have hcount : 0 < fractionCount := by decide
        omega
    rw [nearestBits, if_pos hnumerator, hparts, hfields.1, hfields.2]
    rfl
  · rw [nearestBits_of_value_eq (magnitude_denominator_pos number) (value_magnitude number)
      hzero (unit_magnitude hzero)]
    have hcarry : (number.exponent + 1074).toNat * fractionCount + number.significand =
        number.magnitudeBits := by
      rw [hparts]
      by_cases hfield : number.exponentField = 0
      · rw [exponent, significand, if_pos hfield, if_pos hfield, hfield]
        rfl
      · have hplaces : ((number.exponentField : ℤ) - 1075 + 1074).toNat + 1 =
            number.exponentField := by omega
        rw [exponent, significand, if_neg hfield, if_neg hfield, ← Nat.add_assoc,
          ← Nat.succ_mul, Nat.succ_eq_add_one, hplaces]
    rw [hcarry, Nat.min_eq_right hbits.le]

end Binary64

end LoxLexer

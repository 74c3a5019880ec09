import LoxLexer.Proofs.Decimal.ReadBack
import Mathlib.Algebra.Order.AbsoluteValue.Basic
import Mathlib.Data.Rat.Lemmas
import Mathlib.Order.WithBot

/-!
# Nearest numbers

Rounding works on bits: a power of two is found, a significand is rounded in its
units, and the two are put together, with a carry.  What comes out is the number
nearest to the ratio among all finite numbers, of two equally near ones that with
the even significand, and infinity from the middle between the greatest finite
number and the next power of two on (`isNearestTo_nearest`).

There is one such number (`IsNearestTo.unique`), and it grows with the rational
(`IsNearestTo.extended_le`).
-/

namespace LoxLexer

open Ratio

/-! ## The nearest natural among all integers -/

namespace Ratio.IsNearest

variable {value : ℚ} {number : ℕ}

theorem abs_sub_le_half
    (hnearest : IsNearest value number) :
    |value - number| ≤ 1 / 2 := by
  have hle := hnearest.le
  have hge := hnearest.ge
  rw [abs_le]
  constructor
  · linarith
  · linarith

/-- Any other integer is half a unit away, or more. -/
theorem half_le_abs_sub
    {other : ℤ}
    (hnearest : IsNearest value number)
    (hne : other ≠ number) :
    1 / 2 ≤ |value - other| := by
  have hle := hnearest.le
  have hge := hnearest.ge
  rcases Int.lt_or_gt_of_ne hne with hlt | hgt
  · have hnext : (other : ℚ) + 1 ≤ number := by exact_mod_cast hlt
    apply le_abs.mpr
    left
    linarith
  · have hnext : (number : ℚ) + 1 ≤ other := by exact_mod_cast hgt
    apply le_abs.mpr
    right
    linarith

theorem abs_sub_le
    (hnearest : IsNearest value number)
    (other : ℤ) :
    |value - number| ≤ |value - other| := by
  by_cases heq : other = number
  · rw [heq, Int.cast_natCast]
  · exact hnearest.abs_sub_le_half.trans (hnearest.half_le_abs_sub heq)

theorem even_of_abs_sub_eq
    {other : ℤ}
    (hnearest : IsNearest value number)
    (hne : other ≠ number)
    (htie : |value - number| = |value - other|) :
    number % 2 = 0 := by
  have hhalf : |value - number| = 1 / 2 := by
    apply le_antisymm hnearest.abs_sub_le_half
    rw [htie]
    exact hnearest.half_le_abs_sub hne
  apply hnearest.even
  rcases (abs_eq (by norm_num)).mp hhalf with hupper | hlower
  · right
    linarith
  · left
    linarith

end Ratio.IsNearest

namespace Binary64

/-! ## Significands and exponents -/

section

variable {number other : Binary64}

theorem cast_fractionCount : (fractionCount : ℚ) = 2 ^ (52 : ℤ) := by
  norm_num [fractionCount]

theorem least_le_exponent (number : Binary64) : -1074 ≤ number.exponent := by
  unfold exponent
  split
  · exact le_refl _
  · omega

theorem significand_lt (number : Binary64) : number.significand < 2 * fractionCount := by
  have hlt := number.fractionField_lt
  unfold significand
  split
  · omega
  · omega

/-- Only in the least unit there are significands without a leading one. -/
theorem exponent_eq_or_le_significand (number : Binary64) :
    number.exponent = -1074 ∨ fractionCount ≤ number.significand := by
  unfold exponent significand
  split
  · exact Or.inl rfl
  · exact Or.inr (Nat.le_add_right _ _)

theorem magnitudeBits_eq_exponent (number : Binary64) :
    number.magnitudeBits =
      (number.exponent + 1074).toNat * fractionCount + number.significand := by
  rw [magnitudeBits_eq]
  by_cases hfield : number.exponentField = 0
  · rw [exponent, significand, if_pos hfield, if_pos hfield, hfield]
    rfl
  · have hplaces : ((number.exponentField : ℤ) - 1075 + 1074).toNat + 1 =
        number.exponentField := by omega
    rw [exponent, significand, if_neg hfield, if_neg hfield, ← Nat.add_assoc,
      ← Nat.succ_mul, Nat.succ_eq_add_one, hplaces]

/-- A significand is as even as the bits. -/
theorem significand_mod_two (number : Binary64) :
    number.significand % 2 = number.magnitudeBits % 2 := by
  have hcount : fractionCount = 2 * 2251799813685248 := rfl
  rw [magnitudeBits_eq_exponent, hcount, Nat.mul_left_comm, Nat.mul_add_mod]

/-- Bits put together from an exponent and a significand give them back, also if the
significand has one binary place too many by a carry. -/
theorem value_magnitude_of_magnitudeBits
    {unit : ℤ} {significand : ℕ}
    (hunit : -1074 ≤ unit)
    (hsignificand : significand ≤ 2 * fractionCount)
    (hleads : unit = -1074 ∨ fractionCount ≤ significand)
    (hbits : number.magnitudeBits = (unit + 1074).toNat * fractionCount + significand) :
    number.magnitude.value = significand * 2 ^ unit := by
  have hcases : (number.exponent = unit ∧ number.significand = significand) ∨
      (number.exponent = unit + 1 ∧ number.significand = fractionCount ∧
        significand = 2 * fractionCount) := by
    have hlt := significand_lt number
    have hleast := least_le_exponent number
    have hown := exponent_eq_or_le_significand number
    rw [magnitudeBits_eq_exponent] at hbits
    unfold fractionCount at *
    omega
  rw [value_magnitude]
  rcases hcases with ⟨hexponent, hsame⟩ | ⟨hexponent, hfirst, hcarry⟩
  · rw [hexponent, hsame]
  · rw [hexponent, hfirst, hcarry, zpow_add_one₀ two_ne_zero, Nat.cast_mul, Nat.cast_ofNat]
    ring

/-- Magnitudes are in the order of their bits. -/
theorem value_magnitude_lt
    (hlt : number.magnitudeBits < other.magnitudeBits) :
    number.magnitude.value < other.magnitude.value := by
  have hbelow := significand_lt number
  have hcases : (number.exponent = other.exponent ∧ number.significand < other.significand) ∨
      (number.exponent < other.exponent ∧ fractionCount ≤ other.significand) := by
    have habove := significand_lt other
    have hleads := exponent_eq_or_le_significand number
    have hleads' := exponent_eq_or_le_significand other
    have hleast := least_le_exponent number
    have hleast' := least_le_exponent other
    rw [magnitudeBits_eq_exponent, magnitudeBits_eq_exponent] at hlt
    unfold fractionCount at *
    omega
  rw [value_magnitude, value_magnitude]
  rcases hcases with ⟨hexponent, hsignificand⟩ | ⟨hexponent, hleading⟩
  · rw [hexponent]
    exact mul_lt_mul_of_pos_right (Nat.cast_lt.mpr hsignificand) (zpow_pos two_pos _)
  · calc (number.significand : ℚ) * 2 ^ number.exponent
        < (2 * fractionCount : ℕ) * 2 ^ number.exponent :=
          mul_lt_mul_of_pos_right (Nat.cast_lt.mpr hbelow) (zpow_pos two_pos _)
      _ = fractionCount * 2 ^ (number.exponent + 1) := by
          rw [zpow_add_one₀ two_ne_zero, Nat.cast_mul, Nat.cast_ofNat]
          ring
      _ ≤ other.significand * 2 ^ other.exponent :=
          mul_le_mul (Nat.cast_le.mpr hleading)
            (zpow_le_zpow_right₀ one_le_two (Int.add_one_le_of_lt hexponent))
            (zpow_pos two_pos _).le (Nat.cast_nonneg _)

end

/-! ## Rounding in units -/

/-- A rational is rounded in a unit: the one that leaves it 53 binary places, or the
least one. -/
structure RoundsAt (rational : ℚ) (unit : ℤ) (significand : ℕ) : Prop where
  least : -1074 ≤ unit
  below : rational < 2 ^ (unit + 53)
  leads : unit = -1074 ∨ 2 ^ (unit + 52) ≤ rational
  nearest : IsNearest (rational / 2 ^ unit) significand

/-- The significand of a ratio is rounded in its unit. -/
theorem roundsAt_unitExponent
    {ratio : Ratio}
    (hpos : 0 < ratio.denominator)
    (hzero : ratio.numerator ≠ 0) :
    RoundsAt ratio.value (unitExponent ratio)
      (ratio.unscale 2 (unitExponent ratio)).roundHalfEven := by
  have hvalue : 0 < ratio.value := by
    apply lt_of_le_of_ne ratio.value_nonneg
    rw [ne_eq, eq_comm, value_eq_zero_iff hpos]
    exact hzero
  have hlow := Int.zpow_log_le_self Nat.one_lt_two hvalue
  have hhigh := Int.lt_zpow_succ_log_self Nat.one_lt_two ratio.value
  rw [Nat.cast_ofNat] at hlow hhigh
  have hunit : unitExponent ratio = max (-1074) (Int.log 2 ratio.value - 52) := by
    rw [unitExponent, floorLog2_eq_log hzero hpos]
  constructor
  · rw [hunit]
    exact le_max_left _ _
  · apply hhigh.trans_le
    apply zpow_le_zpow_right₀ one_le_two
    omega
  · rcases le_total (Int.log 2 ratio.value - 52) (-1074) with hle | hle
    · left
      rw [hunit, max_eq_left hle]
    · right
      rw [hunit, max_eq_right hle, sub_add_cancel]
      exact hlow
  · have hnearest := isNearest_roundHalfEven (unscale_denominator_pos hpos (unitExponent ratio))
    rwa [value_unscale, Nat.cast_ofNat] at hnearest

theorem roundsAt_zero : RoundsAt 0 (-1074) 0 where
  least := le_refl _
  below := zpow_pos two_pos _
  leads := Or.inl rfl
  nearest := by
    rw [zero_div]
    exact isNearest_natCast 0

/-- The nearest bits are made of a significand and the unit in which it is rounded. -/
theorem exists_roundsAt
    {ratio : Ratio}
    (hpos : 0 < ratio.denominator) :
    ∃ unit significand, RoundsAt ratio.value unit significand ∧
      nearestBits ratio =
        min infinityBits ((unit + 1074).toNat * fractionCount + significand) := by
  by_cases hzero : ratio.numerator = 0
  · have hvalue : ratio.value = 0 := (value_eq_zero_iff hpos).mpr hzero
    refine ⟨-1074, 0, hvalue ▸ roundsAt_zero, ?_⟩
    rw [nearestBits, if_pos hzero]
    rfl
  · refine ⟨_, _, roundsAt_unitExponent hpos hzero, ?_⟩
    rw [nearestBits, if_neg hzero]

namespace RoundsAt

variable {rational : ℚ} {unit : ℤ} {significand : ℕ}

theorem significand_le
    (hrounds : RoundsAt rational unit significand) :
    significand ≤ 2 * fractionCount := by
  have hscaled : rational / 2 ^ unit < 2 ^ (53 : ℤ) := by
    rw [div_lt_iff₀ (zpow_pos two_pos _), ← zpow_add₀ two_ne_zero, add_comm]
    exact hrounds.below
  have hdouble : (2 : ℚ) ^ (53 : ℤ) = 2 * fractionCount := by
    rw [cast_fractionCount]
    norm_num
  have hle := hrounds.nearest.le
  have hnumber : (significand : ℚ) < ((2 * fractionCount + 1 : ℕ) : ℚ) := by
    push_cast
    linarith
  exact Nat.lt_succ_iff.mp (Nat.cast_lt.mp hnumber)

theorem eq_or_le_significand
    (hrounds : RoundsAt rational unit significand) :
    unit = -1074 ∨ fractionCount ≤ significand := by
  refine hrounds.leads.imp_right fun hleads => ?_
  have hscaled : (2 : ℚ) ^ (52 : ℤ) ≤ rational / 2 ^ unit := by
    rw [le_div_iff₀ (zpow_pos two_pos _), ← zpow_add₀ two_ne_zero, add_comm]
    exact hleads
  have hge := hrounds.nearest.ge
  have hnumber : (fractionCount : ℚ) < ((significand + 1 : ℕ) : ℚ) := by
    rw [cast_fractionCount]
    push_cast
    linarith
  exact Nat.lt_succ_iff.mp (Nat.cast_lt.mp hnumber)

end RoundsAt

/-! ## Infinity -/

/-- The middle between the greatest finite number and the next power of two. -/
def overflow : ℚ := 2 ^ 1024 - 2 ^ 970

theorem overflow_div_unit : overflow / 2 ^ (971 : ℤ) = 2 * fractionCount - 1 / 2 := by
  have hhigh : (2 : ℚ) ^ 1024 = 2 ^ (53 : ℤ) * 2 ^ (971 : ℤ) := by
    rw [← zpow_natCast, ← zpow_add₀ two_ne_zero]
    rfl
  have hlow : (2 : ℚ) ^ (971 : ℤ) = 2 ^ 970 * 2 := by
    rw [← zpow_natCast, ← zpow_add_one₀ two_ne_zero]
    rfl
  have hdouble : (2 : ℚ) ^ (53 : ℤ) = 2 * fractionCount := by
    rw [cast_fractionCount]
    norm_num
  rw [overflow, sub_div, hhigh, mul_div_cancel_right₀ _ (zpow_ne_zero _ two_ne_zero), hlow,
    div_mul_cancel_left₀ (pow_ne_zero _ two_ne_zero), hdouble, one_div]

/-- In the greatest unit of finite numbers, the significand carries when the rational
reaches the middle. -/
theorem RoundsAt.two_mul_le_significand_iff
    {rational : ℚ} {unit : ℤ} {significand : ℕ}
    (hrounds : RoundsAt rational unit significand) :
    2 * fractionCount ≤ significand ↔
      2 * fractionCount - 1 / 2 ≤ rational / 2 ^ unit := by
  have hle := hrounds.nearest.le
  have hge := hrounds.nearest.ge
  constructor
  · intro hcarries
    have hcast : ((2 * fractionCount : ℕ) : ℚ) ≤ significand := Nat.cast_le.mpr hcarries
    push_cast at hcast
    linarith
  · intro hreached
    by_contra hbelow
    -- the significand before the carry is odd, so it does not keep a tie
    have hsucc : significand + 1 ≤ 2 * fractionCount := by omega
    have hcast : ((significand + 1 : ℕ) : ℚ) ≤ (2 * fractionCount : ℕ) := Nat.cast_le.mpr hsucc
    push_cast at hcast
    have heven := hrounds.nearest.even (Or.inr (by linarith))
    have hlast : ((2 * fractionCount : ℕ) : ℚ) ≤ ((significand + 1 : ℕ) : ℚ) := by
      push_cast
      linarith
    rw [Nat.cast_le] at hlast
    omega

/-- The bits reach those of infinity when the rational reaches the middle. -/
theorem RoundsAt.infinityBits_le_iff
    {rational : ℚ} {unit : ℤ} {significand : ℕ}
    (hrounds : RoundsAt rational unit significand) :
    infinityBits ≤ (unit + 1074).toNat * fractionCount + significand ↔
      overflow ≤ rational := by
  have hupper := hrounds.significand_le
  have hlower := hrounds.eq_or_le_significand
  have hcarries := hrounds.two_mul_le_significand_iff
  have hpos : (0 : ℚ) < 2 ^ (971 : ℤ) := zpow_pos two_pos _
  have hone : (1 : ℚ) ≤ fractionCount := by norm_num [fractionCount]
  have hmiddle : overflow ≤ rational ↔
      2 * fractionCount - 1 / 2 ≤ rational / 2 ^ (971 : ℤ) := by
    rw [← overflow_div_unit, div_le_div_iff_of_pos_right hpos]
  rcases lt_trichotomy unit 971 with hlt | rfl | hgt
  · -- in a smaller unit neither the bits nor the rational come that far
    have hpower : (2 : ℚ) ^ (unit + 53) ≤ fractionCount * 2 ^ (971 : ℤ) := by
      rw [cast_fractionCount, ← zpow_add₀ two_ne_zero]
      exact zpow_le_zpow_right₀ one_le_two (by omega)
    have hscaled : rational / 2 ^ (971 : ℤ) < fractionCount :=
      (div_lt_iff₀ hpos).mpr (hrounds.below.trans_le hpower)
    apply iff_of_false
    · unfold fractionCount infinityBits at *
      omega
    · rw [hmiddle, not_le]
      linarith
  · rw [hmiddle, ← hcarries]
    unfold fractionCount infinityBits
    omega
  · -- in a greater unit both do
    have hunit : unit ≠ -1074 := by omega
    have hpower : 2 * fractionCount * (2 : ℚ) ^ (971 : ℤ) ≤ 2 ^ (unit + 52) := by
      rw [cast_fractionCount, mul_assoc, mul_left_comm, ← zpow_one_add₀ two_ne_zero,
        ← zpow_add₀ two_ne_zero]
      exact zpow_le_zpow_right₀ one_le_two (by omega)
    have hscaled : 2 * fractionCount ≤ rational / 2 ^ (971 : ℤ) :=
      (le_div_iff₀ hpos).mpr (hpower.trans (hrounds.leads.resolve_left hunit))
    apply iff_of_true
    · have hleading := hlower.resolve_left hunit
      unfold fractionCount infinityBits at *
      omega
    · rw [hmiddle]
      linarith

/-! ## Finite numbers -/

/-- The rational that a finite number stands for. -/
def value (number : Binary64) : ℚ :=
  (if number.isNegative then -1 else 1) * number.magnitude.value

section

variable {number other : Binary64} {rational : ℚ} {unit : ℤ} {significand : ℕ}

theorem value_of_not_isNegative
    (hpositive : number.isNegative = false) :
    number.value = number.magnitude.value := by
  rw [value, hpositive, if_neg Bool.false_ne_true, one_mul]

theorem value_le_magnitude (number : Binary64) : number.value ≤ number.magnitude.value := by
  have hnonneg := number.magnitude.value_nonneg
  unfold value
  split
  · linarith
  · linarith

/-- A number is a whole number of the units that are not greater than its own. -/
theorem exists_value_eq_mul
    (hunit : unit ≤ number.exponent) :
    ∃ count : ℤ, number.value = count * 2 ^ unit := by
  obtain ⟨places, hplaces⟩ := Int.eq_ofNat_of_zero_le (Int.sub_nonneg_of_le hunit)
  have hexponent : number.exponent = places + unit := by omega
  refine ⟨(if number.isNegative then -1 else 1) * (number.significand * 2 ^ places), ?_⟩
  rw [value, value_magnitude, hexponent, zpow_add₀ two_ne_zero, zpow_natCast]
  push_cast
  ring

/-- In a smaller unit a number does not come as far as the rationals that are rounded in
this one. -/
theorem value_lt_of_exponent_lt
    (hunit : number.exponent < unit) :
    number.value < fractionCount * 2 ^ unit := by
  have hlt : (number.significand : ℚ) < 2 * fractionCount := by
    exact_mod_cast significand_lt number
  calc number.value
      ≤ number.significand * 2 ^ number.exponent := by
        rw [← value_magnitude]
        exact value_le_magnitude number
    _ < 2 * fractionCount * 2 ^ number.exponent :=
        mul_lt_mul_of_pos_right hlt (zpow_pos two_pos _)
    _ = fractionCount * 2 ^ (number.exponent + 1) := by
        rw [zpow_add_one₀ two_ne_zero]
        ring
    _ ≤ fractionCount * 2 ^ unit :=
        mul_le_mul_of_nonneg_left
          (zpow_le_zpow_right₀ one_le_two (Int.add_one_le_of_lt hunit)) (Nat.cast_nonneg _)

theorem abs_sub_mul_unit (rational count : ℚ) (unit : ℤ) :
    |rational - count * 2 ^ unit| = |rational / 2 ^ unit - count| * 2 ^ unit := by
  have hpos : (0 : ℚ) < 2 ^ unit := zpow_pos two_pos _
  rw [← abs_of_pos hpos, ← abs_mul, abs_of_pos hpos, sub_mul, div_mul_cancel₀ _ hpos.ne']

/-- No number is closer than the rounded significand; if another one is as close, the
significand is even. -/
theorem RoundsAt.closest
    (hrounds : RoundsAt rational unit significand)
    (other : Binary64) :
    |rational - significand * 2 ^ unit| ≤ |rational - other.value| ∧
      (other.value ≠ significand * 2 ^ unit →
        |rational - significand * 2 ^ unit| = |rational - other.value| →
        significand % 2 = 0) := by
  have hpos : (0 : ℚ) < 2 ^ unit := zpow_pos two_pos _
  by_cases hunit : unit ≤ other.exponent
  · obtain ⟨count, hcount⟩ := exists_value_eq_mul hunit
    rw [hcount, abs_sub_mul_unit, abs_sub_mul_unit]
    refine ⟨mul_le_mul_of_nonneg_right (hrounds.nearest.abs_sub_le count) hpos.le, ?_⟩
    intro hne htie
    apply hrounds.nearest.even_of_abs_sub_eq _ (mul_right_cancel₀ hpos.ne' htie)
    rintro rfl
    exact hne rfl
  · -- the first significand with a leading one lies between the other one and the rational
    have hbelow := value_lt_of_exponent_lt (Int.lt_of_not_ge hunit)
    have hleast := hrounds.leads.resolve_left (by have := least_le_exponent other; omega)
    rw [zpow_add₀ two_ne_zero, mul_comm, ← cast_fractionCount] at hleast
    have hfirst := hrounds.nearest.abs_sub_le fractionCount
    rw [Int.cast_natCast] at hfirst
    have hcloser : |rational - significand * 2 ^ unit| < |rational - other.value| := by
      calc |rational - significand * 2 ^ unit|
          ≤ |rational - fractionCount * 2 ^ unit| := by
            rw [abs_sub_mul_unit, abs_sub_mul_unit]
            exact mul_le_mul_of_nonneg_right hfirst hpos.le
        _ = rational - fractionCount * 2 ^ unit := abs_of_nonneg (sub_nonneg.mpr hleast)
        _ < rational - other.value := sub_lt_sub_left hbelow rational
        _ ≤ |rational - other.value| := le_abs_self _
    exact ⟨hcloser.le, fun _ htie => absurd htie hcloser.ne⟩

end

/-! ## The nearest number -/

/-- What it is for a number to be the one nearest to a rational that is not negative: it is
infinite from the middle after the greatest finite number on; before, no finite number is
closer, and if another one is as close, the significand is even. -/
structure IsNearestTo (rational : ℚ) (number : Binary64) : Prop where
  isNaN : number.isNaN = false
  isNegative : number.isNegative = false
  isInfinite : number.isInfinite = true ↔ overflow ≤ rational
  closest : number.isFinite = true → ∀ other : Binary64, other.isFinite = true →
    |rational - number.value| ≤ |rational - other.value|
  even : number.isFinite = true → ∀ other : Binary64, other.isFinite = true →
    other.value ≠ number.value →
    |rational - number.value| = |rational - other.value| → number.significand % 2 = 0

/-- Rounding a ratio gives the number nearest to it. -/
theorem isNearestTo_nearest
    {ratio : Ratio}
    (hpos : 0 < ratio.denominator) :
    IsNearestTo ratio.value (nearest ratio) := by
  obtain ⟨unit, significand, hrounds, hbits⟩ := exists_roundsAt hpos
  rw [← magnitudeBits_nearest] at hbits
  have hpositive := isNegative_nearest ratio
  have hnumber := isNaN_nearest ratio
  generalize nearest ratio = number at *
  have hfinite : number.isFinite = true →
      number.value = significand * 2 ^ unit ∧ number.significand % 2 = significand % 2 := by
    intro hfinite
    rw [isFinite, decide_eq_true_eq] at hfinite
    have hown : number.magnitudeBits = (unit + 1074).toNat * fractionCount + significand := by
      omega
    refine ⟨?_, ?_⟩
    · rw [value_of_not_isNegative hpositive]
      exact value_magnitude_of_magnitudeBits hrounds.least hrounds.significand_le
        hrounds.eq_or_le_significand hown
    · rw [significand_mod_two, hown]
      unfold fractionCount
      omega
  refine ⟨hnumber, hpositive, ?_, ?_, ?_⟩
  · rw [isInfinite, decide_eq_true_eq, hbits, ← hrounds.infinityBits_le_iff, min_eq_left_iff]
  · intro hself other _
    rw [(hfinite hself).1]
    exact (hrounds.closest other).1
  · intro hself other _
    rw [(hfinite hself).1, (hfinite hself).2]
    exact (hrounds.closest other).2

/-! ## Uniqueness and order -/

theorem magnitudeBits_ofMagnitudeBits
    {bits : ℕ}
    (hbits : bits < signWeight) :
    (ofMagnitudeBits bits).magnitudeBits = bits := by
  have hword : (UInt64.ofNat bits).toNat = bits :=
    UInt64.toNat_ofNat_of_lt (hbits.trans (by decide))
  rw [ofMagnitudeBits, magnitudeBits, hword, Nat.mod_eq_of_lt hbits]

theorem isNegative_ofMagnitudeBits
    {bits : ℕ}
    (hbits : bits < signWeight) :
    (ofMagnitudeBits bits).isNegative = false := by
  have hword : (UInt64.ofNat bits).toNat = bits :=
    UInt64.toNat_ofNat_of_lt (hbits.trans (by decide))
  rw [ofMagnitudeBits, isNegative, hword, decide_eq_false_iff_not, not_le]
  exact hbits

/-- A number is given by its sign and the bits of its magnitude. -/
theorem eq_of_magnitudeBits_eq
    {number other : Binary64}
    (hsign : number.isNegative = other.isNegative)
    (hbits : number.magnitudeBits = other.magnitudeBits) :
    number = other := by
  have hwords : number.bits.toNat = other.bits.toNat := by
    rw [← bits_eq number, ← bits_eq other, hsign, hbits]
  exact congrArg Binary64.mk (UInt64.toNat_inj.mp hwords)

theorem value_lt_value
    {number other : Binary64}
    (hnumber : number.isNegative = false)
    (hother : other.isNegative = false)
    (hlt : number.magnitudeBits < other.magnitudeBits) :
    number.value < other.value := by
  rw [value_of_not_isNegative hnumber, value_of_not_isNegative hother]
  exact value_magnitude_lt hlt

/-- What is at least as close to the upper end lies in the upper half. -/
theorem middle_le_of_abs_sub_le
    {lower upper rational : ℚ}
    (hlt : lower < upper)
    (hcloser : |rational - upper| ≤ |rational - lower|) :
    (lower + upper) / 2 ≤ rational := by
  by_contra hbelow
  rw [not_le] at hbelow
  have hupper : |rational - upper| = upper - rational := by
    rw [abs_sub_comm, abs_of_pos]
    linarith
  have hother : |rational - lower| < upper - rational := by
    rw [abs_lt]
    constructor
    · linarith
    · linarith
  linarith

theorem le_middle_of_abs_sub_le
    {lower upper rational : ℚ}
    (hlt : lower < upper)
    (hcloser : |rational - lower| ≤ |rational - upper|) :
    rational ≤ (lower + upper) / 2 := by
  have hreflected : |-rational - -lower| ≤ |-rational - -upper| →
      (-upper + -lower) / 2 ≤ -rational :=
    middle_le_of_abs_sub_le (neg_lt_neg hlt)
  rw [neg_sub_neg, neg_sub_neg, abs_sub_comm lower, abs_sub_comm upper] at hreflected
  linarith [hreflected hcloser]

namespace IsNearestTo

variable {rational greater : ℚ} {number other : Binary64}

theorem isFinite
    (hnearest : IsNearestTo rational number)
    (hrational : rational < overflow) :
    number.isFinite = true := by
  apply (isInfinite_or_isFinite hnearest.isNaN).resolve_left
  intro hinfinite
  exact absurd hrational (not_lt.mpr (hnearest.isInfinite.mp hinfinite))

/-- Of two numbers nearest to a rational neither is the greater one: both would be even,
and a number between them closer. -/
theorem magnitudeBits_le
    (hnumber : IsNearestTo rational number)
    (hother : IsNearestTo rational other)
    (hrational : rational < overflow) :
    other.magnitudeBits ≤ number.magnitudeBits := by
  by_contra hlt
  rw [not_le] at hlt
  have hfinite := hnumber.isFinite hrational
  have hfinite' := hother.isFinite hrational
  have hvalue := value_lt_value hnumber.isNegative hother.isNegative hlt
  have htie : |rational - number.value| = |rational - other.value| :=
    le_antisymm (hnumber.closest hfinite other hfinite')
      (hother.closest hfinite' number hfinite)
  have heven := hnumber.even hfinite other hfinite' hvalue.ne' htie
  have heven' := hother.even hfinite' number hfinite hvalue.ne htie.symm
  rw [significand_mod_two] at heven heven'
  rw [Binary64.isFinite, decide_eq_true_eq] at hfinite'
  have hbits : number.magnitudeBits + 1 < signWeight := by
    unfold infinityBits signWeight at *
    omega
  have hpositive := isNegative_ofMagnitudeBits hbits
  have hbetween := magnitudeBits_ofMagnitudeBits hbits
  generalize ofMagnitudeBits (number.magnitudeBits + 1) = between at hpositive hbetween
  have hcloser := hnumber.closest hfinite between (by
    rw [Binary64.isFinite, decide_eq_true_eq]
    omega)
  have hlower : number.value < between.value :=
    value_lt_value hnumber.isNegative hpositive (by omega)
  have hupper : between.value < other.value :=
    value_lt_value hpositive hother.isNegative (by omega)
  have hmiddle := middle_le_of_abs_sub_le hvalue htie.ge
  have hmiddle' := le_middle_of_abs_sub_le hlower hcloser
  linarith

/-- There is one nearest number. -/
theorem unique
    (hnumber : IsNearestTo rational number)
    (hother : IsNearestTo rational other) :
    number = other := by
  apply eq_of_magnitudeBits_eq (hnumber.isNegative.trans hother.isNegative.symm)
  by_cases hrational : overflow ≤ rational
  · have hinfinite := of_decide_eq_true (hnumber.isInfinite.mpr hrational)
    have hinfinite' := of_decide_eq_true (hother.isInfinite.mpr hrational)
    exact hinfinite.trans hinfinite'.symm
  · rw [not_le] at hrational
    exact Nat.le_antisymm (hother.magnitudeBits_le hnumber hrational)
      (hnumber.magnitudeBits_le hother hrational)

end IsNearestTo

/-- Where a number stands among the rationals with an end on either side, if it is a
number. -/
def extended (number : Binary64) : WithBot (WithTop ℚ) :=
  if number.isInfinite then (if number.isNegative then ⊥ else ⊤)
  else ((number.value : WithTop ℚ) : WithBot (WithTop ℚ))

theorem extended_of_isFinite
    {number : Binary64}
    (hfinite : number.isFinite = true) :
    number.extended = ((number.value : WithTop ℚ) : WithBot (WithTop ℚ)) := by
  have hnot : ¬ number.isInfinite = true := by
    rw [isFinite, decide_eq_true_eq] at hfinite
    rw [isInfinite, decide_eq_true_eq]
    exact hfinite.ne
  rw [extended, if_neg hnot]

theorem extended_of_isInfinite
    {number : Binary64}
    (hpositive : number.isNegative = false)
    (hinfinite : number.isInfinite = true) :
    number.extended = ⊤ := by
  rw [extended, if_pos hinfinite, hpositive, if_neg Bool.false_ne_true]

/-- The nearest number grows with the rational. -/
theorem IsNearestTo.extended_le
    {rational greater : ℚ} {number other : Binary64}
    (hnumber : IsNearestTo rational number)
    (hother : IsNearestTo greater other)
    (hle : rational ≤ greater) :
    number.extended ≤ other.extended := by
  by_cases hinfinite : overflow ≤ greater
  · rw [extended_of_isInfinite hother.isNegative (hother.isInfinite.mpr hinfinite)]
    exact le_top
  · rw [not_le] at hinfinite
    have hfinite := hnumber.isFinite (hle.trans_lt hinfinite)
    have hfinite' := hother.isFinite hinfinite
    rw [extended_of_isFinite hfinite, extended_of_isFinite hfinite', WithBot.coe_le_coe,
      WithTop.coe_le_coe]
    by_contra hlt
    rw [not_le] at hlt
    -- both rationals then lie in the middle, and are one
    have hmiddle := middle_le_of_abs_sub_le hlt (hnumber.closest hfinite other hfinite')
    have hmiddle' := le_middle_of_abs_sub_le hlt (hother.closest hfinite' number hfinite)
    obtain rfl : rational = greater := by linarith
    exact absurd (congrArg value (hnumber.unique hother)) hlt.ne'

/-- The bits of the nearest number grow with the ratio. -/
theorem nearestBits_mono
    {ratio other : Ratio}
    (hpos : 0 < ratio.denominator)
    (hother : 0 < other.denominator)
    (hle : ratio.value ≤ other.value) :
    nearestBits ratio ≤ nearestBits other := by
  have hextended := (isNearestTo_nearest hpos).extended_le (isNearestTo_nearest hother) hle
  have hbound := nearestBits_le ratio
  rw [← magnitudeBits_nearest] at hbound
  rw [← magnitudeBits_nearest, ← magnitudeBits_nearest other]
  by_contra hlt
  rw [not_le] at hlt
  have hfinite : (nearest other).isFinite = true := by
    rw [isFinite, decide_eq_true_eq]
    omega
  rw [extended_of_isFinite hfinite] at hextended
  rcases isInfinite_or_isFinite (isNaN_nearest ratio) with hinfinite | hfinite'
  · rw [extended_of_isInfinite (isNegative_nearest ratio) hinfinite] at hextended
    exact absurd (WithTop.coe_lt_top (nearest other).value)
      (not_lt.mpr (WithBot.coe_le_coe.mp hextended))
  · rw [extended_of_isFinite hfinite', WithBot.coe_le_coe, WithTop.coe_le_coe] at hextended
    exact absurd (value_lt_value (isNegative_nearest other) (isNegative_nearest ratio) hlt)
      (not_lt.mpr hextended)

end Binary64

end LoxLexer

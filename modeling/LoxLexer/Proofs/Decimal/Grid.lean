import LoxLexer.Proofs.Decimal.Interval

/-!
# Grids of decimals

On the grid of a count of digits a magnitude has two neighbours, one that it reaches and
one above it.  No decimal with as many digits, or fewer, lies between the two
(`le_below_or_above_le`), and so a neighbour reads back as the number if such a decimal
does, and is no farther (`neighbor_of_readsBack`).  Seventeen digits are always enough
(`onGrid?_seventeen_ne_none`).
-/

namespace LoxLexer

open Ratio Binary64

namespace Decimal

/-! ## Counts of digits -/

section

variable {decimal : Decimal} {count : ℕ}

theorem length_digits_le_iff
    (hcount : 0 < count) :
    decimal.digits.length ≤ count ↔ decimal.coefficient < 10 ^ count :=
  Nat.length_toDigits_le_iff (by decide) hcount

theorem length_digits_pos (decimal : Decimal) : 0 < decimal.digits.length :=
  Nat.length_toDigits_pos

theorem lt_pow_length_toDigits (number : ℕ) : number < 10 ^ (Nat.toDigits 10 number).length :=
  (Nat.length_toDigits_le_iff (by decide) Nat.length_toDigits_pos).mp (Nat.le_refl _)

/-- A natural other than zero reaches the power of ten of its first digit. -/
theorem pow_length_toDigits_le
    {number : ℕ}
    (hnumber : number ≠ 0) :
    10 ^ ((Nat.toDigits 10 number).length - 1) ≤ number := by
  by_contra hlt
  rw [not_le] at hlt
  by_cases hone : (Nat.toDigits 10 number).length = 1
  · rw [hone, Nat.sub_self, pow_zero] at hlt
    omega
  · have hpos : 0 < (Nat.toDigits 10 number).length := Nat.length_toDigits_pos
    have hle := (Nat.length_toDigits_le_iff (by decide) (by omega)).mpr hlt
    omega

theorem value_eq_zero_iff : decimal.value = 0 ↔ decimal.coefficient = 0 := by
  rw [value, mul_eq_zero, Nat.cast_eq_zero, or_iff_left (zpow_ne_zero _ (by norm_num))]

/-- A decimal lies between the power of ten of its first digit and the next one. -/
theorem zpow_leadingExponent_le
    (hdecimal : decimal.coefficient ≠ 0) :
    (10 : ℚ) ^ decimal.leadingExponent ≤ decimal.value := by
  have hle := pow_length_toDigits_le hdecimal
  have hpos := decimal.length_digits_pos
  have hexponent : decimal.leadingExponent =
      ((decimal.digits.length - 1 : ℕ) : ℤ) + decimal.exponent := by
    rw [leadingExponent]
    omega
  rw [hexponent, zpow_add₀ (by norm_num), zpow_natCast, value]
  exact mul_le_mul_of_nonneg_right (by exact_mod_cast hle) (zpow_pos (by norm_num) _).le

theorem lt_zpow_leadingExponent (decimal : Decimal) :
    decimal.value < (10 : ℚ) ^ (decimal.leadingExponent + 1) := by
  have hexponent : decimal.leadingExponent + 1 =
      (decimal.digits.length : ℤ) + decimal.exponent := by
    rw [leadingExponent]
    omega
  rw [hexponent, zpow_add₀ (by norm_num), zpow_natCast, value]
  exact mul_lt_mul_of_pos_right (by exact_mod_cast lt_pow_length_toDigits decimal.coefficient)
    (zpow_pos (by norm_num) _)

/-- The first digit of a decimal stands at a power of ten that it reaches. -/
theorem le_leadingExponent_iff
    {power : ℤ}
    (hdecimal : decimal.coefficient ≠ 0) :
    power ≤ decimal.leadingExponent ↔ (10 : ℚ) ^ power ≤ decimal.value := by
  constructor
  · intro hle
    exact (zpow_le_zpow_right₀ (by norm_num) hle).trans (zpow_leadingExponent_le hdecimal)
  · intro hle
    have hlt := hle.trans_lt decimal.lt_zpow_leadingExponent
    rw [zpow_lt_zpow_iff_right₀ (by norm_num)] at hlt
    omega

end

end Decimal

/-! ## The two sides of a ratio -/

namespace Ratio

variable {ratio : Ratio}

theorem floor_le_value
    (hpos : 0 < ratio.denominator) :
    (ratio.floor : ℚ) ≤ ratio.value := by
  rw [value, le_div_iff₀ (Nat.cast_pos.mpr hpos)]
  exact_mod_cast ratio.floor_mul_le

theorem value_lt_floor_add_one
    (hpos : 0 < ratio.denominator) :
    ratio.value < ratio.floor + 1 := by
  rw [value, div_lt_iff₀ (Nat.cast_pos.mpr hpos), add_mul, one_mul]
  exact_mod_cast lt_floor_mul_add hpos

/-- The middle after the floor is compared with the ratio itself. -/
theorem compares_compareMiddle
    (hpos : 0 < ratio.denominator) :
    ratio.compareMiddle.Compares ratio.value (ratio.floor + 1 / 2) := by
  have hden : (0 : ℚ) < ratio.denominator := Nat.cast_pos.mpr hpos
  have hmono : StrictMono fun number : ℕ => (number : ℚ) / (2 * ratio.denominator) :=
    fun _ _ hlt => div_lt_div_of_pos_right (Nat.cast_lt.mpr hlt) (by positivity)
  have hnatural : ratio.compareMiddle.Compares (2 * ratio.numerator)
      ((2 * ratio.floor + 1) * ratio.denominator) := (compare_iff _ _).mp rfl
  have hvalue : ((2 * ratio.numerator : ℕ) : ℚ) / (2 * ratio.denominator) = ratio.value := by
    rw [value, Nat.cast_mul, Nat.cast_ofNat, mul_div_mul_left _ _ two_ne_zero]
  have hmiddle : (((2 * ratio.floor + 1) * ratio.denominator : ℕ) : ℚ) /
      (2 * ratio.denominator) = ratio.floor + 1 / 2 := by
    push_cast
    rw [mul_div_mul_right _ _ hden.ne']
    ring
  rw [← hvalue, ← hmiddle]
  exact hmono.compares.mpr hnatural

end Ratio

namespace Decimal

/-! ## The power of ten above a ratio -/

theorem zpow_powerAbove_of_le
    {ratio : Ratio}
    (hpos : 0 < ratio.denominator)
    (hle : ratio.denominator ≤ ratio.numerator) :
    (10 : ℚ) ^ (powerAbove ratio - 1) ≤ ratio.value ∧
      ratio.value < (10 : ℚ) ^ powerAbove ratio := by
  have hfloor : ratio.floor ≠ 0 := Nat.ne_of_gt (Nat.div_pos hle hpos)
  have hlow := pow_length_toDigits_le hfloor
  have hlength : 0 < (Nat.toDigits 10 ratio.floor).length := Nat.length_toDigits_pos
  have hhigh := lt_pow_length_toDigits ratio.floor
  have hpower : ((Nat.toDigits 10 ratio.floor).length : ℤ) - 1 =
      ((Nat.toDigits 10 ratio.floor).length - 1 : ℕ) := by omega
  rw [powerAbove, if_pos hle]
  constructor
  · rw [hpower, zpow_natCast]
    exact le_trans (by exact_mod_cast hlow) (floor_le_value hpos)
  · rw [zpow_natCast]
    exact (value_lt_floor_add_one hpos).trans_le (by exact_mod_cast hhigh)

theorem zpow_powerAbove_of_lt
    {ratio : Ratio}
    (hnumerator : ratio.numerator ≠ 0)
    (hlt : ratio.numerator < ratio.denominator) :
    (10 : ℚ) ^ (powerAbove ratio - 1) ≤ ratio.value ∧
      ratio.value < (10 : ℚ) ^ powerAbove ratio := by
  have hnum : 0 < ratio.numerator := Nat.pos_of_ne_zero hnumerator
  have hden : (0 : ℚ) < ratio.denominator := Nat.cast_pos.mpr (by omega)
  rw [powerAbove, if_neg (by omega)]
  -- below one the zeros after the point are counted by the digits of this quotient
  generalize hquotient : (ratio.denominator - 1) / ratio.numerator = quotient
  have hne : quotient ≠ 0 := by
    rw [← hquotient]
    exact Nat.ne_of_gt (Nat.div_pos (by omega) hnum)
  have hlow := pow_length_toDigits_le hne
  have hlength : 0 < (Nat.toDigits 10 quotient).length := Nat.length_toDigits_pos
  have hhigh := lt_pow_length_toDigits quotient
  generalize (Nat.toDigits 10 quotient).length = length at hlow hhigh hlength ⊢
  obtain ⟨count, rfl⟩ := Nat.exists_eq_add_one.mpr hlength
  rw [← hquotient, Nat.add_sub_cancel, Nat.le_div_iff_mul_le hnum] at hlow
  rw [← hquotient, Nat.div_lt_iff_lt_mul hnum] at hhigh
  have hbefore : 1 - ((count + 1 : ℕ) : ℤ) - 1 = -((count + 1 : ℕ) : ℤ) := by omega
  have habove : 1 - ((count + 1 : ℕ) : ℤ) = -(count : ℤ) := by omega
  rw [hbefore, habove, zpow_neg, zpow_neg, zpow_natCast, zpow_natCast, ← one_div, ← one_div,
    Ratio.value]
  constructor
  · have hle : ratio.denominator ≤ ratio.numerator * 10 ^ (count + 1) := by
      rw [Nat.mul_comm]
      omega
    rw [div_le_div_iff₀ (by positivity) hden, one_mul]
    exact_mod_cast hle
  · have hgt : ratio.numerator * 10 ^ count < ratio.denominator := by
      rw [Nat.mul_comm]
      omega
    rw [div_lt_div_iff₀ hden (by positivity), one_mul]
    exact_mod_cast hgt

/-- A ratio lies between the power of ten above it and the one before. -/
theorem zpow_powerAbove
    {ratio : Ratio}
    (hnumerator : ratio.numerator ≠ 0)
    (hpos : 0 < ratio.denominator) :
    (10 : ℚ) ^ (powerAbove ratio - 1) ≤ ratio.value ∧
      ratio.value < (10 : ℚ) ^ powerAbove ratio := by
  by_cases hle : ratio.denominator ≤ ratio.numerator
  · exact zpow_powerAbove_of_le hpos hle
  · exact zpow_powerAbove_of_lt hnumerator (Nat.lt_of_not_le hle)

/-! ## Grids -/

section

variable {number : Binary64} {exponent : ℤ} {decimal : Decimal}

/-- The greatest decimal of a grid that the magnitude of a number reaches. -/
def below (number : Binary64) (exponent : ℤ) : Decimal :=
  ⟨(number.magnitude.unscale 10 exponent).floor, exponent⟩

/-- The least decimal of a grid above the magnitude of a number. -/
def above (number : Binary64) (exponent : ℤ) : Decimal :=
  ⟨(number.magnitude.unscale 10 exponent).floor + 1, exponent⟩

theorem steps_denominator_pos (number : Binary64) (exponent : ℤ) :
    0 < (number.magnitude.unscale 10 exponent).denominator :=
  scaleUp_pos number.magnitude_denominator_pos (by decide) exponent

theorem value_steps (number : Binary64) (exponent : ℤ) :
    (number.magnitude.unscale 10 exponent).value = number.magnitude.value / 10 ^ exponent := by
  rw [value_unscale, Nat.cast_ofNat]

theorem value_below_le (number : Binary64) (exponent : ℤ) :
    (below number exponent).value ≤ number.magnitude.value := by
  have hle := floor_le_value (steps_denominator_pos number exponent)
  rw [value_steps, le_div_iff₀ (zpow_pos (by norm_num) _)] at hle
  exact hle

theorem lt_value_above (number : Binary64) (exponent : ℤ) :
    number.magnitude.value < (above number exponent).value := by
  have hlt := value_lt_floor_add_one (steps_denominator_pos number exponent)
  rw [value_steps, div_lt_iff₀ (zpow_pos (by norm_num) _)] at hlt
  rw [value, above]
  push_cast
  exact hlt

theorem value_above (number : Binary64) (exponent : ℤ) :
    (above number exponent).value = (below number exponent).value + 10 ^ exponent := by
  rw [value, value, above, below]
  push_cast
  ring

theorem value_le_value
    {coefficient other : ℕ}
    (hle : coefficient ≤ other) :
    (⟨coefficient, exponent⟩ : Decimal).value ≤ (⟨other, exponent⟩ : Decimal).value :=
  mul_le_mul_of_nonneg_right (Nat.cast_le.mpr hle) (zpow_pos (by norm_num) _).le

/-- No decimal in the units of a grid, or in greater ones, lies between the neighbours. -/
theorem le_below_or_above_le_of_exponent_le
    (hexponent : exponent ≤ decimal.exponent) :
    decimal.value ≤ (below number exponent).value ∨
      (above number exponent).value ≤ decimal.value := by
  obtain ⟨places, hplaces⟩ := Int.eq_ofNat_of_zero_le (Int.sub_nonneg_of_le hexponent)
  have hscaled :
      decimal.value = (⟨decimal.coefficient * 10 ^ places, exponent⟩ : Decimal).value := by
    have hsum : decimal.exponent = places + exponent := by omega
    rw [value, value, hsum, zpow_add₀ (by norm_num), zpow_natCast]
    push_cast
    ring
  rw [hscaled]
  rcases Nat.lt_or_ge (number.magnitude.unscale 10 exponent).floor
    (decimal.coefficient * 10 ^ places) with hlt | hge
  · exact Or.inr (value_le_value hlt)
  · exact Or.inl (value_le_value hge)

theorem magnitude_numerator_ne_zero
    (hzero : number.isZero = false) :
    number.magnitude.numerator ≠ 0 := by
  rw [ne_eq, ← Ratio.value_eq_zero_iff number.magnitude_denominator_pos]
  exact (magnitude_pos hzero).ne'

theorem zpow_powerAbove_magnitude
    (hzero : number.isZero = false) :
    (10 : ℚ) ^ (powerAbove number.magnitude - 1) ≤ number.magnitude.value ∧
      number.magnitude.value < (10 : ℚ) ^ powerAbove number.magnitude :=
  zpow_powerAbove (magnitude_numerator_ne_zero hzero) number.magnitude_denominator_pos

theorem value_power (power : ℤ) : (⟨1, power⟩ : Decimal).value = 10 ^ power := by
  rw [value, Nat.cast_one, one_mul]

/-- The lower neighbour does not fall below the power of ten that the magnitude reaches. -/
theorem zpow_le_below
    (hzero : number.isZero = false)
    (hexponent : exponent < powerAbove number.magnitude) :
    (10 : ℚ) ^ (powerAbove number.magnitude - 1) ≤ (below number exponent).value := by
  have hreached := (zpow_powerAbove_magnitude hzero).1
  rw [← value_power] at hreached ⊢
  apply (le_below_or_above_le_of_exponent_le (Int.le_sub_one_of_lt hexponent)).resolve_right
  rw [not_le]
  exact hreached.trans_lt (lt_value_above number exponent)

/-- The upper neighbour does not pass the power of ten above the magnitude. -/
theorem above_le_zpow
    (hzero : number.isZero = false)
    (hexponent : exponent < powerAbove number.magnitude) :
    (above number exponent).value ≤ (10 : ℚ) ^ powerAbove number.magnitude := by
  have hpassed := (zpow_powerAbove_magnitude hzero).2
  rw [← value_power] at hpassed ⊢
  apply (le_below_or_above_le_of_exponent_le hexponent.le).resolve_left
  rw [not_le]
  exact (value_below_le number exponent).trans_lt hpassed

/-- A decimal with no more digits than a grid does not lie between the neighbours. -/
theorem le_below_or_above_le
    {count : ℕ}
    (hzero : number.isZero = false)
    (hcount : 0 < count)
    (hdigits : decimal.digits.length ≤ count) :
    decimal.value ≤ (below number (powerAbove number.magnitude - count)).value ∨
      (above number (powerAbove number.magnitude - count)).value ≤ decimal.value := by
  have hreached : (10 : ℚ) ^ (powerAbove number.magnitude - 1) ≤
      (below number (powerAbove number.magnitude - count)).value :=
    zpow_le_below hzero (by omega)
  by_cases hsmall : decimal.value < (10 : ℚ) ^ (powerAbove number.magnitude - 1)
  · exact Or.inl (hsmall.le.trans hreached)
  · apply le_below_or_above_le_of_exponent_le
    rw [not_lt] at hsmall
    have hlt := hsmall.trans_lt decimal.lt_zpow_leadingExponent
    rw [zpow_lt_zpow_iff_right₀ (by norm_num), leadingExponent] at hlt
    omega

/-! ## The closer neighbour -/

theorem compares_compareMiddle_steps (number : Binary64) (exponent : ℤ) :
    (number.magnitude.unscale 10 exponent).compareMiddle.Compares number.magnitude.value
      (((below number exponent).value + (above number exponent).value) / 2) := by
  have hpos : (0 : ℚ) < 10 ^ exponent := zpow_pos (by norm_num) _
  have hmono : StrictMono fun rational : ℚ => rational * 10 ^ exponent :=
    fun _ _ hlt => mul_lt_mul_of_pos_right hlt hpos
  have hvalue : (number.magnitude.unscale 10 exponent).value * 10 ^ exponent =
      number.magnitude.value := by
    rw [value_steps, div_mul_cancel₀ _ hpos.ne']
  have hmiddle : ((number.magnitude.unscale 10 exponent).floor + 1 / 2) * 10 ^ exponent =
      ((below number exponent).value + (above number exponent).value) / 2 := by
    rw [value_above, value, below]
    ring
  rw [← hvalue, ← hmiddle]
  exact hmono.compares.mpr (compares_compareMiddle (steps_denominator_pos number exponent))

/-- The neighbour that is preferred is not the farther one. -/
theorem prefersUpper_closer (tie : Tie) (number : Binary64) (exponent : ℤ) :
    if prefersUpper tie (number.magnitude.unscale 10 exponent) then
      (above number exponent).value - number.magnitude.value ≤
        number.magnitude.value - (below number exponent).value
    else
      number.magnitude.value - (below number exponent).value ≤
        (above number exponent).value - number.magnitude.value := by
  have hcompares := compares_compareMiddle_steps number exponent
  cases hmiddle : (number.magnitude.unscale 10 exponent).compareMiddle with
  | lt =>
      rw [hmiddle, Ordering.Compares] at hcompares
      simp only [prefersUpper, hmiddle, Bool.false_eq_true, if_false]
      linarith
  | gt =>
      rw [hmiddle, Ordering.Compares] at hcompares
      simp only [prefersUpper, hmiddle, if_true]
      linarith
  | eq =>
      -- whichever is preferred, the two are equally close
      rw [hmiddle, Ordering.Compares] at hcompares
      split
      · linarith
      · linarith

/-- What a grid gives is a neighbour that reads back, and no neighbour that does is
closer. -/
structure IsFound (number : Binary64) (exponent : ℤ) (found : Decimal) : Prop where
  neighbor : found = below number exponent ∨ found = above number exponent
  reads : readsBack number found = true
  le_below : readsBack number (below number exponent) = true →
    |number.magnitude.value - found.value| ≤
      number.magnitude.value - (below number exponent).value
  le_above : readsBack number (above number exponent) = true →
    |number.magnitude.value - found.value| ≤
      (above number exponent).value - number.magnitude.value

theorem abs_sub_below (number : Binary64) (exponent : ℤ) :
    |number.magnitude.value - (below number exponent).value| =
      number.magnitude.value - (below number exponent).value :=
  abs_of_nonneg (sub_nonneg.mpr (value_below_le number exponent))

theorem abs_sub_above (number : Binary64) (exponent : ℤ) :
    |number.magnitude.value - (above number exponent).value| =
      (above number exponent).value - number.magnitude.value := by
  rw [abs_sub_comm]
  exact abs_of_nonneg (sub_nonneg.mpr (lt_value_above number exponent).le)

theorem onGrid?_eq (tie : Tie) (number : Binary64) (exponent : ℤ) :
    onGrid? tie number exponent =
      match readsBack number (below number exponent), readsBack number (above number exponent) with
      | true, true =>
        some (if prefersUpper tie (number.magnitude.unscale 10 exponent) then
          above number exponent else below number exponent)
      | true, false => some (below number exponent)
      | false, true => some (above number exponent)
      | false, false => none :=
  rfl

theorem isFound_of_onGrid?_eq_some
    {tie : Tie} {found : Decimal}
    (hfound : onGrid? tie number exponent = some found) :
    IsFound number exponent found := by
  have hreads := readsBack_of_onGrid?_eq_some hfound
  have hcloser := prefersUpper_closer tie number exponent
  have hfrom := abs_sub_below number exponent
  have hto := abs_sub_above number exponent
  rw [onGrid?_eq] at hfound
  split at hfound
  · cases hfound
    split at hcloser
    · rename_i hupper
      rw [if_pos hupper] at hreads ⊢
      exact ⟨Or.inr rfl, hreads, fun _ => hto.trans_le hcloser, fun _ => hto.le⟩
    · rename_i hlower
      rw [if_neg hlower] at hreads ⊢
      exact ⟨Or.inl rfl, hreads, fun _ => hfrom.le, fun _ => hfrom.trans_le hcloser⟩
  · rename_i hnone
    cases hfound
    refine ⟨Or.inl rfl, hreads, fun _ => hfrom.le, ?_⟩
    rw [hnone]
    intro hupper
    cases hupper
  · rename_i hnone _
    cases hfound
    refine ⟨Or.inr rfl, hreads, ?_, fun _ => hto.le⟩
    rw [hnone]
    intro hlower
    cases hlower
  · cases hfound

/-- A grid gives something if one of the neighbours reads back. -/
theorem onGrid?_ne_none
    {tie : Tie}
    (hreads : readsBack number (below number exponent) = true ∨
      readsBack number (above number exponent) = true) :
    onGrid? tie number exponent ≠ none := by
  intro hnone
  rw [onGrid?_eq] at hnone
  split at hnone
  · cases hnone
  · cases hnone
  · cases hnone
  · rename_i hlower hupper
    rw [hlower, hupper] at hreads
    rcases hreads with hreads | hreads
    · cases hreads
    · cases hreads

/-- If a decimal with no more digits than a grid reads back, then so does a neighbour,
which is no farther. -/
theorem neighbor_of_readsBack
    {count : ℕ}
    (hfinite : number.isFinite = true)
    (hzero : number.isZero = false)
    (hcount : 0 < count)
    (hdigits : decimal.digits.length ≤ count)
    (hreads : readsBack number decimal = true) :
    (readsBack number (below number (powerAbove number.magnitude - count)) = true ∧
      decimal.value ≤ (below number (powerAbove number.magnitude - count)).value) ∨
    (readsBack number (above number (powerAbove number.magnitude - count)) = true ∧
      (above number (powerAbove number.magnitude - count)).value ≤ decimal.value) := by
  have hexact := readsBack_exact hfinite
  rcases le_below_or_above_le hzero hcount hdigits with hle | hge
  · refine Or.inl ⟨readsBack_of_between hreads hexact hle ?_, hle⟩
    rw [value_exact]
    exact value_below_le number _
  · refine Or.inr ⟨readsBack_of_between hexact hreads ?_ hge, hge⟩
    rw [value_exact]
    exact (lt_value_above number _).le

theorem IsFound.closest
    {count : ℕ} {found : Decimal}
    (hfound : IsFound number (powerAbove number.magnitude - count) found)
    (hfinite : number.isFinite = true)
    (hzero : number.isZero = false)
    (hcount : 0 < count)
    (hdigits : decimal.digits.length ≤ count)
    (hreads : readsBack number decimal = true) :
    |number.magnitude.value - found.value| ≤ |number.magnitude.value - decimal.value| := by
  rcases neighbor_of_readsBack hfinite hzero hcount hdigits hreads with
    ⟨hlower, hle⟩ | ⟨hupper, hge⟩
  · have hcloser := hfound.le_below hlower
    have hfrom := le_abs_self (number.magnitude.value - decimal.value)
    linarith
  · have hcloser := hfound.le_above hupper
    have hto := neg_le_abs (number.magnitude.value - decimal.value)
    linarith

/-- On the grid of seventeen digits a neighbour reads back. -/
theorem onGrid?_seventeen_ne_none
    (hfinite : number.isFinite = true)
    (hzero : number.isZero = false)
    (tie : Tie) :
    onGrid? tie number (powerAbove number.magnitude - (17 : ℕ)) ≠ none := by
  apply onGrid?_ne_none
  generalize hexponent : powerAbove number.magnitude - ((17 : ℕ) : ℤ) = exponent
  have hpos := magnitude_pos hzero
  have hspacing : (10 : ℚ) ^ exponent ≤ number.magnitude.value / 10 ^ 16 := by
    have hpower : powerAbove number.magnitude - 1 = exponent + 16 := by omega
    have hreached := (zpow_powerAbove_magnitude hzero).1
    rw [hpower, zpow_add₀ (by norm_num)] at hreached
    rw [le_div_iff₀ (by norm_num)]
    exact hreached
  have hsmall : number.magnitude.value / 10 ^ 16 < 2 * (number.magnitude.value / 2 ^ 54) := by
    linarith
  have hsum := value_above number exponent
  have hfrom := abs_sub_below number exponent
  have hto := abs_sub_above number exponent
  rw [abs_sub_comm] at hfrom hto
  by_cases hlower : number.magnitude.value - (below number exponent).value ≤ 10 ^ exponent / 2
  · left
    apply readsBack_of_close hfinite
    linarith
  · right
    apply readsBack_of_close hfinite
    linarith

theorem IsFound.value_bounds
    {found : Decimal}
    (hfound : IsFound number exponent found)
    (hzero : number.isZero = false)
    (hexponent : exponent < powerAbove number.magnitude) :
    (10 : ℚ) ^ (powerAbove number.magnitude - 1) ≤ found.value ∧
      found.value ≤ 10 ^ powerAbove number.magnitude := by
  have hlow := zpow_le_below hzero hexponent
  have hhigh := above_le_zpow hzero hexponent
  have hbelow := value_below_le number exponent
  have habove := lt_value_above number exponent
  rcases hfound.neighbor with rfl | rfl
  · exact ⟨hlow, by linarith⟩
  · exact ⟨by linarith, hhigh⟩

theorem IsFound.exponent_eq
    {found : Decimal}
    (hfound : IsFound number exponent found) :
    found.exponent = exponent := by
  rcases hfound.neighbor with rfl | rfl
  · rfl
  · rfl

end

end Decimal

end LoxLexer

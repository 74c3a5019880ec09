import LoxLexer.Proofs.Decimal.Grid

/-!
# Shortest decimals

The search tries one digit, two digits and so on, and on each grid only the two
neighbours of the magnitude.  What it finds is shortest all the same: no decimal
that reads back has fewer digits, and none with as few is closer
(`isShortest_shortest`).

Two shortest decimals can be equally close.  They are the two neighbours then, and
which of them is found is the one thing that the way to break ties decides
(`value_shortest_of_tie`).
-/

namespace LoxLexer

open Ratio Binary64

namespace Decimal

section

variable {number : Binary64} {decimal : Decimal}

/-! ## Zeros at the end -/

theorem coefficient_withoutTrailingZeros_le (decimal : Decimal) :
    decimal.withoutTrailingZeros.coefficient ≤ decimal.coefficient := by
  induction decimal using withoutTrailingZeros.induct with
  | case1 decimal hzero ih =>
      rw [withoutTrailingZeros, if_pos hzero]
      exact ih.trans (Nat.div_le_self _ _)
  | case2 decimal hkept => rw [withoutTrailingZeros, if_neg hkept]

theorem coefficient_withoutTrailingZeros_mod_ten
    (hdecimal : decimal.coefficient ≠ 0) :
    decimal.withoutTrailingZeros.coefficient % 10 ≠ 0 := by
  induction decimal using withoutTrailingZeros.induct with
  | case1 decimal hzero ih =>
      have hrest : decimal.coefficient / 10 ≠ 0 := by omega
      rw [withoutTrailingZeros, if_pos hzero]
      exact ih hrest
  | case2 decimal hkept =>
      rw [withoutTrailingZeros, if_neg hkept]
      exact fun hmod => hkept ⟨hdecimal, hmod⟩

/-- The power of ten after the last one with as many digits loses all its zeros. -/
theorem length_withoutTrailingZeros_le
    {count : ℕ}
    (hcount : 0 < count)
    (hdecimal : decimal.coefficient ≠ 0)
    (hle : decimal.coefficient ≤ 10 ^ count) :
    decimal.withoutTrailingZeros.digits.length ≤ count := by
  rw [length_digits_le_iff hcount]
  have hkept := coefficient_withoutTrailingZeros_le decimal
  have hlast := coefficient_withoutTrailingZeros_mod_ten hdecimal
  have hpower : 10 ^ count % 10 = 0 :=
    Nat.mod_eq_zero_of_dvd (dvd_pow_self 10 hcount.ne')
  apply lt_of_le_of_ne (hkept.trans hle)
  intro heq
  rw [heq] at hlast
  exact hlast hpower

/-! ## The search -/

/-- The search ends at the first count of digits for which a grid gives something. -/
theorem exists_onGrid?_eq_some
    (hfinite : number.isFinite = true)
    (hzero : number.isZero = false)
    (tie : Tie) :
    ∃ count found, 0 < count ∧
      onGrid? tie number (powerAbove number.magnitude - (count : ℕ)) = some found ∧
      shortest tie number = found.withoutTrailingZeros ∧
      ∀ fewer : ℕ, 0 < fewer → fewer < count →
        onGrid? tie number (powerAbove number.magnitude - fewer) = none := by
  unfold shortest
  dsimp only
  generalize hsearch : (List.range' 1 17).findSome? _ = result
  cases result with
  | none =>
      rw [List.findSome?_eq_none_iff] at hsearch
      exact absurd (hsearch 17 (by decide)) (onGrid?_seventeen_ne_none hfinite hzero tie)
  | some found =>
      obtain ⟨before, count, after, hrange, hfound, hnone⟩ :=
        List.findSome?_eq_some_iff.mp hsearch
      obtain ⟨tried, -, rfl, hrest⟩ := List.range'_eq_append_iff.mp hrange
      obtain ⟨rfl, -, -⟩ := List.range'_eq_cons_iff.mp hrest.symm
      refine ⟨_, found, by omega, hfound, rfl, ?_⟩
      intro fewer hpos hlt
      apply hnone
      rw [List.mem_range'_1]
      omega

end

/-- The shortest decimals of a finite number: they read back as the number without its
sign, no decimal that does has fewer digits, and none with as few is closer. -/
structure IsShortest (number : Binary64) (decimal : Decimal) : Prop where
  reads : number.abs.IsNearestTo decimal.value
  fewest : ∀ other : Decimal, number.abs.IsNearestTo other.value →
    decimal.digits.length ≤ other.digits.length
  closest : ∀ other : Decimal, number.abs.IsNearestTo other.value →
    other.digits.length = decimal.digits.length →
    |number.magnitude.value - decimal.value| ≤ |number.magnitude.value - other.value|

section

variable {number : Binary64} {decimal first second : Decimal}

/-- What the search finds: a decimal on the grid of a count of digits, such that no
decimal with fewer digits reads back. -/
structure IsFirst (number : Binary64) (count : ℕ) (found : Decimal) : Prop where
  pos : 0 < count
  isFound : IsFound number (powerAbove number.magnitude - count) found
  fewest : ∀ decimal : Decimal, readsBack number decimal = true → count ≤ decimal.digits.length
  length : found.withoutTrailingZeros.digits.length = count

theorem exists_isFirst
    (hfinite : number.isFinite = true)
    (hzero : number.isZero = false)
    (tie : Tie) :
    ∃ count found, IsFirst number count found ∧
      onGrid? tie number (powerAbove number.magnitude - (count : ℕ)) = some found ∧
      shortest tie number = found.withoutTrailingZeros := by
  obtain ⟨count, found, hcount, hgrid, hshortest, hnone⟩ :=
    exists_onGrid?_eq_some hfinite hzero tie
  have hfound := isFound_of_onGrid?_eq_some hgrid
  have hfewest : ∀ decimal : Decimal, readsBack number decimal = true →
      count ≤ decimal.digits.length := by
    intro decimal hreads
    by_contra hlt
    rw [not_le] at hlt
    have hneighbor := neighbor_of_readsBack hfinite hzero decimal.length_digits_pos
      (Nat.le_refl _) hreads
    exact onGrid?_ne_none (hneighbor.imp And.left And.left)
      (hnone _ decimal.length_digits_pos hlt)
  refine ⟨count, found, ⟨hcount, hfound, hfewest, ?_⟩, hgrid, hshortest⟩
  apply Nat.le_antisymm
  · -- a neighbour with one digit more is a power of ten, and keeps one digit only
    have hbounds := (hfound.value_bounds hzero (by omega)).2
    have hcoefficient : found.coefficient ≠ 0 := by
      rw [ne_eq, ← value_eq_zero_iff]
      exact (value_pos_of_readsBack hzero hfound.reads).ne'
    apply length_withoutTrailingZeros_le hcount hcoefficient
    have hpower : powerAbove number.magnitude = count + found.exponent := by
      rw [hfound.exponent_eq]
      omega
    rw [hpower, zpow_add₀ (by norm_num), zpow_natCast, value,
      mul_le_mul_iff_of_pos_right (zpow_pos (by norm_num) _)] at hbounds
    exact_mod_cast hbounds
  · exact hfewest _ (readsBack_congr (value_withoutTrailingZeros found) hfound.reads)

/-- The decimal that is found is a shortest one. -/
theorem isShortest_shortest
    (hfinite : number.isFinite = true)
    (hzero : number.isZero = false)
    (tie : Tie) :
    IsShortest number (shortest tie number) := by
  obtain ⟨count, found, hfirst, -, hshortest⟩ := exists_isFirst hfinite hzero tie
  have hvalue := value_withoutTrailingZeros found
  rw [hshortest]
  refine ⟨?_, ?_, ?_⟩
  · rw [hvalue, ← readsBack_iff]
    exact hfirst.isFound.reads
  · intro other hother
    rw [hfirst.length]
    exact hfirst.fewest other (readsBack_iff.mpr hother)
  · intro other hother hlength
    rw [hvalue]
    exact hfirst.isFound.closest hfinite hzero hfirst.pos (hlength.trans hfirst.length).le
      (readsBack_iff.mpr hother)

/-! ## Ties -/

theorem leadingExponent_eq_of_bounds
    {power : ℤ}
    (hdecimal : decimal.coefficient ≠ 0)
    (hlow : (10 : ℚ) ^ power ≤ decimal.value)
    (hhigh : decimal.value < 10 ^ (power + 1)) :
    decimal.leadingExponent = power := by
  have hle := (le_leadingExponent_iff hdecimal).mpr hlow
  have hlt : ¬ power + 1 ≤ decimal.leadingExponent :=
    mt (le_leadingExponent_iff hdecimal).mp (not_le.mpr hhigh)
  omega

/-- Decimals of one value with as many digits are the same. -/
theorem eq_of_value_eq
    (hdecimal : second.coefficient ≠ 0)
    (hvalue : first.value = second.value)
    (hlength : first.digits.length = second.digits.length) :
    first = second := by
  have hfirst : first.coefficient ≠ 0 := by
    rw [ne_eq, ← value_eq_zero_iff, hvalue, value_eq_zero_iff]
    exact hdecimal
  have hleading : first.leadingExponent = second.leadingExponent := by
    apply leadingExponent_eq_of_bounds hfirst
    · rw [hvalue]
      exact zpow_leadingExponent_le hdecimal
    · rw [hvalue]
      exact second.lt_zpow_leadingExponent
  have hexponent : first.exponent = second.exponent := by
    rw [leadingExponent, leadingExponent, hlength] at hleading
    omega
  have hcoefficient : first.coefficient = second.coefficient := by
    rw [value, value, hexponent] at hvalue
    exact_mod_cast mul_right_cancel₀ (zpow_ne_zero _ (by norm_num)) hvalue
  obtain ⟨coefficient, exponent⟩ := first
  obtain rfl := hcoefficient
  obtain rfl := hexponent
  rfl

/-- Two shortest decimals that are not the same are the neighbours on the grid of their
digits, and the magnitude is in the middle. -/
structure IsTie (number : Binary64) (count : ℕ) (first second : Decimal) : Prop where
  lower : first.value = (below number (powerAbove number.magnitude - count)).value
  upper : second.value = (above number (powerAbove number.magnitude - count)).value
  middle : second.value - number.magnitude.value = number.magnitude.value - first.value
  lowerReads : readsBack number (below number (powerAbove number.magnitude - count)) = true
  upperReads : readsBack number (above number (powerAbove number.magnitude - count)) = true

theorem IsShortest.length_eq
    {count : ℕ} {found : Decimal}
    (hshortest : IsShortest number decimal)
    (hfirst : IsFirst number count found) :
    decimal.digits.length = count := by
  apply Nat.le_antisymm
  · rw [← hfirst.length]
    apply hshortest.fewest
    rw [value_withoutTrailingZeros, ← readsBack_iff]
    exact hfirst.isFound.reads
  · exact hfirst.fewest decimal (readsBack_iff.mpr hshortest.reads)

/-- A shortest decimal is as close as what the search finds. -/
theorem IsShortest.abs_sub_eq
    {count : ℕ} {found : Decimal}
    (hshortest : IsShortest number decimal)
    (hfinite : number.isFinite = true)
    (hzero : number.isZero = false)
    (hfirst : IsFirst number count found) :
    |number.magnitude.value - decimal.value| = |number.magnitude.value - found.value| := by
  have hlength := hshortest.length_eq hfirst
  apply le_antisymm
  · rw [← value_withoutTrailingZeros found]
    apply hshortest.closest
    · rw [value_withoutTrailingZeros, ← readsBack_iff]
      exact hfirst.isFound.reads
    · rw [hfirst.length, hlength]
  · exact hfirst.isFound.closest hfinite hzero hfirst.pos hlength.le
      (readsBack_iff.mpr hshortest.reads)

theorem IsShortest.isTie
    {count : ℕ} {found : Decimal}
    (hlower : IsShortest number first)
    (hupper : IsShortest number second)
    (hlt : first.value < second.value)
    (hfinite : number.isFinite = true)
    (hzero : number.isZero = false)
    (hfirst : IsFirst number count found) :
    IsTie number count first second := by
  have hfrom := hlower.abs_sub_eq hfinite hzero hfirst
  have hto := hupper.abs_sub_eq hfinite hzero hfirst
  have hmiddle : second.value - number.magnitude.value =
      number.magnitude.value - first.value := by
    rcases abs_eq_abs.mp (hfrom.trans hto.symm) with heq | heq
    · linarith
    · linarith
  rw [abs_of_nonneg (by linarith)] at hfrom
  rw [abs_of_nonpos (by linarith)] at hto
  have hbelow := value_below_le number (powerAbove number.magnitude - count)
  have habove := lt_value_above number (powerAbove number.magnitude - count)
  have hlower' := neighbor_of_readsBack hfinite hzero hfirst.pos
    (hlower.length_eq hfirst).le (readsBack_iff.mpr hlower.reads)
  have hupper' := neighbor_of_readsBack hfinite hzero hfirst.pos
    (hupper.length_eq hfirst).le (readsBack_iff.mpr hupper.reads)
  -- the neighbour on either side is no farther than the decimal, and so it is its value
  obtain ⟨hlowerReads, hle⟩ := hlower'.resolve_right fun hnot => by linarith [hnot.2]
  obtain ⟨hupperReads, hge⟩ := hupper'.resolve_left fun hnot => by linarith [hnot.2]
  have hnear := hfirst.isFound.le_below hlowerReads
  have hnear' := hfirst.isFound.le_above hupperReads
  exact ⟨by linarith, by linarith, hmiddle, hlowerReads, hupperReads⟩

/-- The lower neighbour has all the digits of its grid. -/
theorem length_below
    {count : ℕ}
    (hzero : number.isZero = false)
    (hcount : 0 < count) :
    (below number (powerAbove number.magnitude - count)).digits.length = count ∧
      (below number (powerAbove number.magnitude - count)).coefficient ≠ 0 := by
  have hlow : (10 : ℚ) ^ (powerAbove number.magnitude - 1) ≤
      (below number (powerAbove number.magnitude - count)).value :=
    zpow_le_below hzero (by omega)
  have hhigh := (value_below_le number (powerAbove number.magnitude - count)).trans_lt
    (zpow_powerAbove_magnitude hzero).2
  have hcoefficient :
      (below number (powerAbove number.magnitude - count)).coefficient ≠ 0 := by
    rw [ne_eq, ← value_eq_zero_iff]
    exact ((zpow_pos (by norm_num) _).trans_le hlow).ne'
  have hleading := leadingExponent_eq_of_bounds hcoefficient hlow (by rwa [sub_add_cancel])
  have hexponent : (below number (powerAbove number.magnitude - count)).exponent =
      powerAbove number.magnitude - count := rfl
  rw [leadingExponent, hexponent] at hleading
  exact ⟨by omega, hcoefficient⟩

theorem IsTie.compareMiddle_eq
    {count : ℕ}
    (htie : IsTie number count first second) :
    (number.magnitude.unscale 10 (powerAbove number.magnitude - count)).compareMiddle = .eq := by
  have hmiddle := htie.middle
  rw [htie.lower, htie.upper] at hmiddle
  exact (compares_compareMiddle_steps number _).eq_eq.mpr (by linarith)

theorem IsTie.onGrid?_eq
    {count : ℕ}
    (htie : IsTie number count first second)
    (tie : Tie) :
    onGrid? tie number (powerAbove number.magnitude - count) =
      some (if prefersUpper tie
          (number.magnitude.unscale 10 (powerAbove number.magnitude - count)) then
        above number (powerAbove number.magnitude - count)
      else below number (powerAbove number.magnitude - count)) := by
  rw [Decimal.onGrid?_eq, htie.lowerReads, htie.upperReads]

/-- Of two shortest decimals the one way to break ties takes the greater, and the other
the lower if its last digit is even. -/
theorem value_shortest_of_tie
    (hlower : IsShortest number first)
    (hupper : IsShortest number second)
    (hlt : first.value < second.value)
    (hfinite : number.isFinite = true)
    (hzero : number.isZero = false) :
    (shortest .up number).value = second.value ∧
      (shortest .toEven number).value =
        if first.coefficient % 2 = 0 then first.value else second.value := by
  constructor
  · obtain ⟨count, found, hfirst, hgrid, hshortest⟩ := exists_isFirst hfinite hzero .up
    have htie := hlower.isTie hupper hlt hfinite hzero hfirst
    have hprefers : prefersUpper .up
        (number.magnitude.unscale 10 (powerAbove number.magnitude - count)) = true := by
      unfold prefersUpper
      rw [htie.compareMiddle_eq]
    rw [htie.onGrid?_eq, hprefers, if_pos rfl, Option.some.injEq] at hgrid
    rw [hshortest, value_withoutTrailingZeros, ← hgrid, htie.upper]
  · obtain ⟨count, found, hfirst, hgrid, hshortest⟩ := exists_isFirst hfinite hzero .toEven
    have htie := hlower.isTie hupper hlt hfinite hzero hfirst
    obtain ⟨hlength, hcoefficient⟩ := length_below hzero hfirst.pos
    have hsame : first = below number (powerAbove number.magnitude - count) :=
      eq_of_value_eq hcoefficient htie.lower ((hlower.length_eq hfirst).trans hlength.symm)
    have hprefers : prefersUpper .toEven
        (number.magnitude.unscale 10 (powerAbove number.magnitude - count)) =
          (first.coefficient % 2 == 1) := by
      unfold prefersUpper
      rw [htie.compareMiddle_eq, hsame, below]
    rw [htie.onGrid?_eq, hprefers, Option.some.injEq] at hgrid
    rw [hshortest, value_withoutTrailingZeros, ← hgrid]
    by_cases heven : first.coefficient % 2 = 0
    · rw [if_pos heven, heven, if_neg (by decide), htie.lower]
    · have hodd : first.coefficient % 2 = 1 := by omega
      rw [if_neg heven, hodd, if_pos (by decide), htie.upper]

/-! ## Powers of ten -/

/-- A shortest decimal reaches a power of ten if the magnitude does, and only then if the
number nearest to the power is not below it. -/
theorem le_leadingExponent_shortest_iff
    {power : ℤ}
    (hfinite : number.isFinite = true)
    (hzero : number.isZero = false)
    (tie : Tie)
    (hpower : (10 : ℚ) ^ power ≤ (nearest (⟨1, power⟩ : Decimal).ratio).value) :
    power ≤ (shortest tie number).leadingExponent ↔
      (10 : ℚ) ^ power ≤ number.magnitude.value := by
  obtain ⟨count, found, hfirst, -, hshortest⟩ := exists_isFirst hfinite hzero tie
  obtain ⟨hlow, hhigh⟩ := hfirst.isFound.value_bounds hzero (by have := hfirst.pos; omega)
  obtain ⟨hreached, hpassed⟩ := zpow_powerAbove_magnitude hzero
  have hvalue : (shortest tie number).value = found.value := by
    rw [hshortest, value_withoutTrailingZeros]
  rw [le_leadingExponent_iff (shortest_coefficient_ne_zero hfinite hzero tie), hvalue]
  constructor
  · intro hle
    by_cases hbefore : power ≤ powerAbove number.magnitude - 1
    · exact (zpow_le_zpow_right₀ (by norm_num) hbefore).trans hreached
    · -- the decimal is the power itself, and the number the one nearest to it
      have hlast := (zpow_le_zpow_iff_right₀ (by norm_num : (1 : ℚ) < 10)).mp (hle.trans hhigh)
      obtain rfl : power = powerAbove number.magnitude := by omega
      have hreads : readsBack number ⟨1, powerAbove number.magnitude⟩ = true := by
        apply readsBack_congr _ hfirst.isFound.reads
        rw [value_power]
        exact le_antisymm hle hhigh
      rw [readsBack, beq_iff_eq, ← nearest_eq_abs_iff] at hreads
      rwa [hreads, value_abs] at hpower
  · intro hle
    have hlt := (zpow_lt_zpow_iff_right₀ (by norm_num : (1 : ℚ) < 10)).mp (hle.trans_lt hpassed)
    exact (zpow_le_zpow_right₀ (by norm_num) (by omega)).trans hlow

end

end Decimal

end LoxLexer

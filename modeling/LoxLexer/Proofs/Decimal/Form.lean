import LoxLexer.Json
import LoxLexer.Proofs.Decimal.Shortest
import LoxLexer.Proofs.Json.Numbers
import LoxLexer.Token.Basic

/-!
# Forms of numbers

A layout writes digits around a point, or one digit before a point and an exponent.
Which of the two it takes goes by the power of ten of the first digit, so by the digits
and not by the number; but for the layouts that there are the number could be asked as
well (`positional_iff_isWithin`), because the numbers nearest to the powers of ten at which
they switch are not below these powers.
-/

namespace LoxLexer

open Lexeme

namespace Binary64

theorem abs_value (number : Binary64) : |number.value| = number.magnitude.value := by
  have hnonneg := number.magnitude.value_nonneg
  unfold value
  split
  · rw [neg_one_mul, abs_neg, abs_of_nonneg hnonneg]
  · rw [one_mul, abs_of_nonneg hnonneg]

/-- Zero, and the numbers whose magnitude lies in a range of rationals. -/
def IsWithin (number : Binary64) (least bound : ℚ) : Prop :=
  number.isZero = true ∨ (least ≤ |number.value| ∧ |number.value| < bound)

theorem le_nearest_of_parts
    {ratio : Ratio} {rational : ℚ} (significand : ℕ) (exponent : ℤ)
    (hparts : (nearest ratio).significand = significand ∧ (nearest ratio).exponent = exponent)
    (hle : rational ≤ significand * 2 ^ exponent) :
    rational ≤ (nearest ratio).value := by
  rw [value_of_not_isNegative (isNegative_nearest ratio), value_magnitude, hparts.1, hparts.2]
  exact hle

end Binary64

namespace Layout

/-! ## The two forms -/

/-- Digits on both sides of a point. -/
def IsPositional (text : List Char) : Prop :=
  ∃ whole fraction, IsDigits whole ∧ IsDigits fraction ∧ text = whole ++ '.' :: fraction

/-- One digit other than zero, more digits after a point, and an exponent, which has a
minus sign or none and does not begin with zero. -/
def IsScientific (text : List Char) : Prop :=
  ∃ first fraction minus exponent, first.isDigit = true ∧ first ≠ '0' ∧
    IsDigits fraction ∧ (minus = [] ∨ minus = ['-']) ∧ IsDigits exponent ∧
    exponent.head? ≠ some '0' ∧
    text = first :: '.' :: (fraction ++ 'E' :: (minus ++ exponent))

variable {layout : Layout} {digits : List Char} {number : Binary64}

theorem isPositional_zero : IsPositional ['0', '.', '0'] :=
  ⟨['0'], ['0'], isDigits_zero, isDigits_zero, rfl⟩

theorem isPositional_positional
    (hdigits : Leads digits)
    (leading : ℤ) :
    IsPositional (positional digits leading) := by
  unfold positional
  dsimp only
  split
  · exact ⟨['0'], _, isDigits_zero, isDigits_zeros_append hdigits.isDigits _, rfl⟩
  · refine ⟨_, _, ((hdigits.take _).append_zeros _).isDigits, ?_, rfl⟩
    split
    · exact isDigits_zero
    · rename_i hne
      rw [List.isEmpty_iff] at hne
      exact ⟨hne, fun c hc => hdigits.isDigits.2 c (List.mem_of_mem_drop hc)⟩

/-- The form of number literals with an exponent. -/
theorem isScientific_mantissa
    {leading : ℤ}
    (hdigits : Leads digits)
    (hleading : leading ≠ 0) :
    IsScientific (Literal.numberLayout.mantissa digits ++
      Literal.numberLayout.exponentText leading) := by
  obtain ⟨⟨hne, hall⟩, hhead⟩ := hdigits
  obtain ⟨first, others, rfl⟩ := List.exists_cons_of_ne_nil hne
  rw [List.forall_mem_cons] at hall
  have hfirst : first ≠ '0' := fun heq => hhead (congrArg some heq)
  have hexponent := head?_toDigits_ne_zero (Int.natAbs_ne_zero.mpr hleading)
  refine ⟨first, if others.isEmpty then ['0'] else others, if leading < 0 then ['-'] else [],
    Nat.toDigits 10 leading.natAbs, hall.1, hfirst, ?_, ?_, isDigits_toDigits _, hexponent, ?_⟩
  · split
    · exact isDigits_zero
    · rename_i hothers
      rw [List.isEmpty_iff] at hothers
      exact ⟨hothers, hall.2⟩
  · split
    · exact Or.inr rfl
    · exact Or.inl rfl
  · cases others with
    | nil => rfl
    | cons second others => rfl

/-! ## The range without exponents -/

/-- The range in which a layout has no exponents goes around one, and the numbers nearest
to the powers of ten at its ends are not below these powers. -/
structure IsBounded (layout : Layout) : Prop where
  around : layout.leastPositional ≤ 0 ∧ 0 ≤ layout.greatestPositional
  least : (10 : ℚ) ^ layout.leastPositional ≤
    (Binary64.nearest (⟨1, layout.leastPositional⟩ : Decimal).ratio).value
  bound : (10 : ℚ) ^ (layout.greatestPositional + 1) ≤
    (Binary64.nearest (⟨1, layout.greatestPositional + 1⟩ : Decimal).ratio).value

theorem isBounded_numberLayout : Literal.numberLayout.IsBounded where
  around := by decide
  least := Binary64.le_nearest_of_parts 4611686018427388 (-62) (by decide +kernel)
    (by norm_num [Literal.numberLayout])
  bound := Binary64.le_nearest_of_parts 5368709120000000 (-29) (by decide +kernel)
    (by norm_num [Literal.numberLayout])

theorem isBounded_jsonLayout : Json.numberLayout.IsBounded where
  around := by decide
  least := Binary64.le_nearest_of_parts 5902958103587057 (-69) (by decide +kernel)
    (by norm_num [Json.numberLayout])
  bound := Binary64.le_nearest_of_parts 5000000000000000 1 (by decide +kernel)
    (by norm_num [Json.numberLayout])

/-- The numbers other than zero that a layout writes without an exponent. -/
theorem positional_iff_isWithin
    (hbounded : layout.IsBounded)
    (hfinite : number.isFinite = true)
    (hzero : number.isZero = false) :
    (layout.leastPositional ≤ (Decimal.shortest layout.tie number).leadingExponent ∧
      (Decimal.shortest layout.tie number).leadingExponent ≤ layout.greatestPositional) ↔
      number.IsWithin (10 ^ layout.leastPositional) (10 ^ (layout.greatestPositional + 1)) := by
  have hlow := Decimal.le_leadingExponent_shortest_iff hfinite hzero layout.tie hbounded.least
  have hhigh := Decimal.le_leadingExponent_shortest_iff hfinite hzero layout.tie hbounded.bound
  rw [← Binary64.abs_value] at hlow hhigh
  rw [Binary64.IsWithin, hzero, or_iff_right Bool.false_ne_true, ← hlow, ← not_le, ← hhigh,
    not_le, Int.lt_add_one_iff]

/-- The text of a finite number after its sign: positional in the range of the layout, and
before and after it a mantissa and an exponent other than zero. -/
theorem exists_body
    (hbounded : layout.IsBounded)
    (hfinite : number.isFinite = true) :
    ∃ body, layout.ofFinite number = sign number ++ body ∧
      (number.IsWithin (10 ^ layout.leastPositional) (10 ^ (layout.greatestPositional + 1)) →
        IsPositional body) ∧
      (¬ number.IsWithin (10 ^ layout.leastPositional)
          (10 ^ (layout.greatestPositional + 1)) →
        ∃ digits leading, Leads digits ∧ leading ≠ 0 ∧
          body = layout.mantissa digits ++ layout.exponentText leading) := by
  refine ⟨_, rfl, ?_⟩
  by_cases hzero : number.isZero = true
  · rw [if_pos hzero]
    exact ⟨fun _ => isPositional_zero, fun hnot => absurd (Or.inl hzero) hnot⟩
  · rw [Bool.not_eq_true] at hzero
    have hdigits : Leads (Decimal.shortest layout.tie number).digits :=
      leads_toDigits (Decimal.shortest_coefficient_ne_zero hfinite hzero layout.tie)
    rw [hzero, if_neg Bool.false_ne_true, ofDecimal,
      ← positional_iff_isWithin hbounded hfinite hzero]
    split
    · rename_i hwithin
      exact ⟨fun _ => isPositional_positional hdigits _, fun hnot => absurd hwithin hnot⟩
    · rename_i hnot
      refine ⟨fun hwithin => absurd hwithin hnot, fun _ => ⟨_, _, hdigits, ?_, rfl⟩⟩
      intro hleading
      rw [hleading] at hnot
      exact hnot hbounded.around

end Layout

end LoxLexer

/-!
# Ratios of naturals

A non-negative rational is kept as a numerator and a denominator, not reduced.
A number scaled by a power of a base, binary or decimal, is such a ratio, so
the two notations meet here and are compared exactly.

Two questions are answered about a ratio: which power of two it reaches, and
which natural is nearest to it, a tie going to the even one.
-/

namespace LoxLexer

/-- A non-negative rational, numerator over denominator. -/
structure Ratio where
  numerator : Nat
  denominator : Nat
deriving DecidableEq

namespace Ratio

/-- `number` times `base` to the power `exponent`, an exponent below zero
counting as zero. -/
def scaleUp (number base : Nat) (exponent : Int) : Nat :=
  number * Nat.pow base exponent.toNat

/-- The ratio of `number` times a power of `base`. -/
def scaled (number base : Nat) (exponent : Int) : Ratio :=
  ⟨scaleUp number base exponent, scaleUp 1 base (-exponent)⟩

/-- The ratio divided by a power of `base`. -/
def unscale (ratio : Ratio) (base : Nat) (exponent : Int) : Ratio :=
  ⟨scaleUp ratio.numerator base (-exponent), scaleUp ratio.denominator base exponent⟩

/-- The greatest power of two that a positive ratio reaches. -/
def floorLog2 (ratio : Ratio) : Int :=
  let guess : Int := (ratio.numerator.log2 : Int) - (ratio.denominator.log2 : Int)
  let unit := ratio.unscale 2 guess
  if unit.denominator ≤ unit.numerator then guess else guess - 1

/-- The greatest natural that a ratio reaches. -/
def floor (ratio : Ratio) : Nat := ratio.numerator / ratio.denominator

/-- How a ratio compares with the middle between its floor and the next natural. -/
def compareMiddle (ratio : Ratio) : Ordering :=
  compare (2 * ratio.numerator) ((2 * ratio.floor + 1) * ratio.denominator)

/-- The natural nearest to a ratio; of two equally near the even one. -/
def roundHalfEven (ratio : Ratio) : Nat :=
  match ratio.compareMiddle with
  | .lt => ratio.floor
  | .gt => ratio.floor + 1
  | .eq => if ratio.floor % 2 = 0 then ratio.floor else ratio.floor + 1

/-- A ratio reaches its floor. -/
theorem floor_mul_le
    (ratio : Ratio) :
    ratio.floor * ratio.denominator ≤ ratio.numerator :=
  Nat.div_mul_le_self ratio.numerator ratio.denominator

/-- A ratio does not reach the natural after its floor. -/
theorem lt_floor_mul_add
    {ratio : Ratio}
    (hpos : 0 < ratio.denominator) :
    ratio.numerator < ratio.floor * ratio.denominator + ratio.denominator := by
  have hdivision := Nat.div_add_mod ratio.numerator ratio.denominator
  have hremainder := Nat.mod_lt ratio.numerator hpos
  rw [Nat.mul_comm] at hdivision
  unfold floor
  omega

/-- Rounding never moves by more than half a unit. -/
theorem roundHalfEven_near
    {ratio : Ratio}
    (hpos : 0 < ratio.denominator) :
    2 * (ratio.roundHalfEven * ratio.denominator) ≤
        2 * ratio.numerator + ratio.denominator ∧
      2 * ratio.numerator ≤
        2 * (ratio.roundHalfEven * ratio.denominator) + ratio.denominator := by
  have hlow := ratio.floor_mul_le
  have hhigh := lt_floor_mul_add hpos
  have hsucc : (ratio.floor + 1) * ratio.denominator =
      ratio.floor * ratio.denominator + ratio.denominator :=
    Nat.succ_mul _ _
  have hmiddle : (2 * ratio.floor + 1) * ratio.denominator =
      2 * (ratio.floor * ratio.denominator) + ratio.denominator := by
    rw [Nat.succ_mul, Nat.mul_assoc]
  unfold roundHalfEven compareMiddle
  rw [hmiddle]
  split
  · rename_i hlt
    rw [Nat.compare_eq_lt] at hlt
    omega
  · rename_i hgt
    rw [Nat.compare_eq_gt] at hgt
    omega
  · rename_i heq
    rw [Nat.compare_eq_eq] at heq
    split <;> omega

/-- A ratio exactly in the middle is rounded to an even natural. -/
theorem roundHalfEven_even_of_middle
    {ratio : Ratio}
    (hmiddle : ratio.compareMiddle = .eq) :
    ratio.roundHalfEven % 2 = 0 := by
  simp only [roundHalfEven, hmiddle]
  split <;> omega

end Ratio
end LoxLexer

import LoxLexer.Decimal.Binary64

/-!
# Shortest decimals

The shortest decimal of a finite number is the one with the fewest significant
digits among those that read back as the number, and of these the closest to
it.  It is found by trying one digit, two digits and so on: on the grid of that
many digits only the two neighbours of the exact value can be closest, and each
is tried by reading it back.

Two neighbours can be equally close; which of them is taken is a parameter.
-/

namespace LoxLexer

/-- A decimal: a coefficient times a power of ten. -/
structure Decimal where
  coefficient : Nat
  exponent : Int
deriving DecidableEq

/-- Which of two equally close neighbours is taken. -/
inductive Tie where
  /-- The greater one. -/
  | up
  /-- The one with an even last digit. -/
  | toEven
deriving DecidableEq

namespace Decimal

/-- The exact value of a decimal. -/
def ratio (decimal : Decimal) : Ratio :=
  Ratio.scaled decimal.coefficient 10 decimal.exponent

/-- The significant digits, written out. -/
def digits (decimal : Decimal) : List Char :=
  Nat.toDigits 10 decimal.coefficient

/-- The power of ten of the first digit. -/
def leadingExponent (decimal : Decimal) : Int :=
  decimal.exponent + ((decimal.digits.length : Int) - 1)

/-- A decimal without zeros at the end of its coefficient. -/
def withoutTrailingZeros (decimal : Decimal) : Decimal :=
  if decimal.coefficient ≠ 0 ∧ decimal.coefficient % 10 = 0 then
    withoutTrailingZeros ⟨decimal.coefficient / 10, decimal.exponent + 1⟩
  else
    decimal
termination_by decimal.coefficient
decreasing_by
  rename_i h
  exact Nat.div_lt_self (Nat.pos_of_ne_zero h.1) (by decide)

/-- The least power of ten above a positive ratio. -/
def powerAbove (ratio : Ratio) : Int :=
  if ratio.denominator ≤ ratio.numerator then
    (Nat.toDigits 10 ratio.floor).length
  else
    1 - ((Nat.toDigits 10 ((ratio.denominator - 1) / ratio.numerator)).length : Int)

/-- Whether a decimal reads back as the magnitude of a number. -/
def readsBack (number : Binary64) (decimal : Decimal) : Bool :=
  Binary64.nearestBits decimal.ratio == number.magnitudeBits

/-- Whether the upper of the two neighbours of a ratio is to be taken when both
will do. -/
def prefersUpper (tie : Tie) (ratio : Ratio) : Bool :=
  match ratio.compareMiddle, tie with
  | .lt, _ => false
  | .gt, _ => true
  | .eq, .up => true
  | .eq, .toEven => ratio.floor % 2 == 1

/-- The decimal on the grid of the given power of ten that reads back as the
number and is closest to it, if one of the value's two neighbours does. -/
def onGrid? (tie : Tie) (number : Binary64) (exponent : Int) : Option Decimal :=
  let steps := number.magnitude.unscale 10 exponent
  let lower : Decimal := ⟨steps.floor, exponent⟩
  let upper : Decimal := ⟨steps.floor + 1, exponent⟩
  match readsBack number lower, readsBack number upper with
  | true, true => some (if prefersUpper tie steps then upper else lower)
  | true, false => some lower
  | false, true => some upper
  | false, false => none

/-- The exact value of a finite number as a decimal. -/
def exact (number : Binary64) : Decimal :=
  if 0 ≤ number.exponent then
    ⟨Ratio.scaleUp number.significand 2 number.exponent, 0⟩
  else
    ⟨Ratio.scaleUp number.significand 5 (-number.exponent), number.exponent⟩

/-- The shortest decimal that reads back as the magnitude of a finite number
other than zero.  Seventeen digits are enough for every number; past them the
exact value stands. -/
def shortest (tie : Tie) (number : Binary64) : Decimal :=
  let power := powerAbove number.magnitude
  let found := (List.range' 1 17).findSome? fun (count : Nat) =>
    onGrid? tie number (power - (count : Int))
  (found.getD (exact number)).withoutTrailingZeros

/-- What a grid gives reads back as the number. -/
theorem readsBack_of_onGrid?_eq_some
    {tie : Tie} {number : Binary64} {exponent : Int} {decimal : Decimal}
    (hfound : onGrid? tie number exponent = some decimal) :
    readsBack number decimal = true := by
  simp only [onGrid?] at hfound
  split at hfound
  · rename_i hlower hupper
    cases hfound
    split
    · exact hupper
    · exact hlower
  · rename_i hlower _
    cases hfound
    exact hlower
  · rename_i _ hupper
    cases hfound
    exact hupper
  · cases hfound

end Decimal
end LoxLexer

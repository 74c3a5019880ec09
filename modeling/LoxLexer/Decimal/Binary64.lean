import LoxLexer.Decimal.Ratio

/-!
# Binary64 numbers

A number literal has a value in the 64-bit binary interchange format: a sign
bit, eleven bits of exponent and 52 bits of fraction.  Numbers are kept as
their bits, so that equality is identity and the two zeros stay apart; what
the bits denote is read off them as a significand and a power of two.

A ratio is turned into a number by rounding to the nearest one, a tie going to
the even significand.  From the middle between the greatest finite number and
the next power of two on, the result is infinite.
-/

namespace LoxLexer

/-- A number in the 64-bit binary interchange format, as its bits. -/
structure Binary64 where
  bits : UInt64
deriving DecidableEq

namespace Binary64

/-- The count of fractions, two to the power 52. -/
def fractionCount : Nat := 4503599627370496

/-- The bits of positive infinity. -/
def infinityBits : Nat := 9218868437227405312

/-- The weight of the sign bit. -/
def signWeight : Nat := 9223372036854775808

/-- The number of the given magnitude bits, positive. -/
def ofMagnitudeBits (bits : Nat) : Binary64 := ⟨UInt64.ofNat bits⟩

/-- Whether the sign bit is set. -/
def isNegative (number : Binary64) : Bool :=
  decide (signWeight ≤ number.bits.toNat)

/-- The bits without the sign. -/
def magnitudeBits (number : Binary64) : Nat :=
  number.bits.toNat % signWeight

/-- The exponent field. -/
def exponentField (number : Binary64) : Nat :=
  number.magnitudeBits / fractionCount

/-- The fraction field. -/
def fractionField (number : Binary64) : Nat :=
  number.magnitudeBits % fractionCount

/-- Whether a number is not a number at all. -/
def isNaN (number : Binary64) : Bool :=
  decide (infinityBits < number.magnitudeBits)

/-- Whether a number is one of the two infinities. -/
def isInfinite (number : Binary64) : Bool :=
  decide (number.magnitudeBits = infinityBits)

/-- Whether a number is neither infinite nor not a number. -/
def isFinite (number : Binary64) : Bool :=
  decide (number.magnitudeBits < infinityBits)

/-- Whether a number is one of the two zeros. -/
def isZero (number : Binary64) : Bool :=
  decide (number.magnitudeBits = 0)

/-- The integer that a power of two is multiplied by to give the magnitude. -/
def significand (number : Binary64) : Nat :=
  if number.exponentField = 0 then
    number.fractionField
  else
    fractionCount + number.fractionField

/-- The power of two that the significand is multiplied by. -/
def exponent (number : Binary64) : Int :=
  if number.exponentField = 0 then
    -1074
  else
    (number.exponentField : Int) - 1075

/-- The magnitude of a finite number, exactly. -/
def magnitude (number : Binary64) : Ratio :=
  Ratio.scaled number.significand 2 number.exponent

/-- Equality as numbers: the two zeros agree, and what is not a number agrees
with nothing. -/
def agrees (first second : Binary64) : Bool :=
  !first.isNaN && !second.isNaN &&
    (first == second || (first.isZero && second.isZero))

/-- The power of two in which a positive ratio is rounded: 53 significant bits,
fewer where the format has no smaller unit. -/
def unitExponent (ratio : Ratio) : Int :=
  max (-1074) (ratio.floorLog2 - 52)

/-- The magnitude bits of the number nearest to a ratio.  A significand that
rounds up to the next power of two carries into the exponent field. -/
def nearestBits (ratio : Ratio) : Nat :=
  if ratio.numerator = 0 then
    0
  else
    let unit := unitExponent ratio
    let rounded := (ratio.unscale 2 unit).roundHalfEven
    min infinityBits ((unit + 1074).toNat * fractionCount + rounded)

/-- The non-negative number nearest to a ratio. -/
def nearest (ratio : Ratio) : Binary64 :=
  ofMagnitudeBits (nearestBits ratio)

/-- The number nearest to a decimal, a coefficient times a power of ten. -/
def ofDecimal (coefficient : Nat) (exponent : Int) : Binary64 :=
  nearest (Ratio.scaled coefficient 10 exponent)

/-- Nothing rounds to more than infinity. -/
theorem nearestBits_le
    (ratio : Ratio) :
    nearestBits ratio ≤ infinityBits := by
  unfold nearestBits
  split
  · exact Nat.zero_le _
  · exact Nat.min_le_left _ _

/-- The nearest number keeps its magnitude bits. -/
theorem magnitudeBits_nearest
    (ratio : Ratio) :
    (nearest ratio).magnitudeBits = nearestBits ratio := by
  have hle : nearestBits ratio ≤ 9218868437227405312 := nearestBits_le ratio
  have hword : (UInt64.ofNat (nearestBits ratio)).toNat = nearestBits ratio :=
    UInt64.toNat_ofNat_of_lt (Nat.lt_of_le_of_lt hle (by decide))
  rw [nearest, ofMagnitudeBits, magnitudeBits, hword]
  exact Nat.mod_eq_of_lt (Nat.lt_of_le_of_lt hle (by decide))

/-- Rounding a ratio always gives a number. -/
theorem isNaN_nearest
    (ratio : Ratio) :
    (nearest ratio).isNaN = false := by
  simpa [isNaN, magnitudeBits_nearest] using nearestBits_le ratio

/-- Rounding a ratio never gives a negative number. -/
theorem isNegative_nearest
    (ratio : Ratio) :
    (nearest ratio).isNegative = false := by
  have hle : nearestBits ratio ≤ 9218868437227405312 := nearestBits_le ratio
  have hword : (UInt64.ofNat (nearestBits ratio)).toNat = nearestBits ratio :=
    UInt64.toNat_ofNat_of_lt (Nat.lt_of_le_of_lt hle (by decide))
  rw [nearest, ofMagnitudeBits, isNegative, hword, decide_eq_false_iff_not, Nat.not_le]
  exact Nat.lt_of_le_of_lt hle (by decide)

end Binary64
end LoxLexer

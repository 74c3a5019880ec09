import LoxLexer.Decimal.Shortest

/-!
# Layouts of decimals

A layout holds the decisions that turn a finite number into text: how a tie
between equally close digits goes, for which magnitudes the digits are written
positionally, and how the exponent is written otherwise.  Positional text
always has a digit after the point.
-/

namespace LoxLexer

/-- The decisions of a way to write finite numbers. -/
structure Layout where
  /-- Which of two equally close decimals is written. -/
  tie : Tie
  /-- The least power of ten of a first digit that is written positionally. -/
  leastPositional : Int
  /-- The greatest power of ten of a first digit that is written positionally. -/
  greatestPositional : Int
  /-- What stands between the digits and the exponent. -/
  exponentMark : Char
  /-- Whether an exponent that is not negative carries a sign. -/
  plusWritten : Bool
  /-- Whether a single digit before an exponent is followed by a point and a zero. -/
  pointKept : Bool

namespace Layout

/-- The sign of a number. -/
def sign (number : Binary64) : List Char :=
  if number.isNegative then ['-'] else []

/-- Digits laid out around a point, the first standing at the given power of ten. -/
def positional (digits : List Char) (leading : Int) : List Char :=
  if leading < 0 then
    '0' :: '.' :: (List.replicate (-leading - 1).toNat '0' ++ digits)
  else
    let whole := leading.toNat + 1
    let fraction := digits.drop whole
    digits.take whole ++ List.replicate (whole - digits.length) '0' ++
      '.' :: (if fraction.isEmpty then ['0'] else fraction)

/-- The digits before an exponent: one, and the others after a point. -/
def mantissa (layout : Layout) (digits : List Char) : List Char :=
  let fraction := digits.drop 1
  digits.take 1 ++
    (if fraction.isEmpty then
      (if layout.pointKept then ['.', '0'] else [])
    else
      '.' :: fraction)

/-- An exponent with its mark and sign. -/
def exponentText (layout : Layout) (exponent : Int) : List Char :=
  layout.exponentMark ::
    ((if exponent < 0 then ['-'] else if layout.plusWritten then ['+'] else []) ++
      Nat.toDigits 10 exponent.natAbs)

/-- A decimal other than zero, laid out. -/
def ofDecimal (layout : Layout) (decimal : Decimal) : List Char :=
  let leading := decimal.leadingExponent
  if layout.leastPositional ≤ leading ∧ leading ≤ layout.greatestPositional then
    positional decimal.digits leading
  else
    layout.mantissa decimal.digits ++ layout.exponentText leading

/-- A finite number in the shortest digits that read back as it. -/
def ofFinite (layout : Layout) (number : Binary64) : List Char :=
  sign number ++
    (if number.isZero then
      ['0', '.', '0']
    else
      layout.ofDecimal (Decimal.shortest layout.tie number))

end Layout
end LoxLexer

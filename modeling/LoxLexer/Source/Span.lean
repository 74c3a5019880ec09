import LoxLexer.Word

/-!
# Spans

A span is a stretch of a source: the offset of its first character and its
length in characters.  The end of a span is computed, not stored, so asking for
it can fault; the empty span and the span between two offsets are the two ways
of making one from positions.
-/

namespace LoxLexer

/-- A stretch of a source, measured in characters. -/
structure Span where
  start : Word
  length : Word
deriving DecidableEq

namespace Span

/-- The span from `start` up to, not including, `stop`. -/
def between (start stop : Word) : Except Fault Span :=
  if start ≤ stop then
    .ok ⟨start, stop - start⟩
  else
    .error .endBeforeStart

/-- The span of no characters at `position`. -/
def empty (position : Word) : Span := ⟨position, 0⟩

/-- Whether a span holds no character. -/
def isEmpty (span : Span) : Bool := span.length == 0

/-- The offset one past the last character of a span. -/
def stop (span : Span) : Except Fault Word :=
  Word.checkedAdd span.start span.length

/-- The two ends of a span. -/
def ends (span : Span) : Except Fault (Word × Word) :=
  (span.stop).map fun stop => (span.start, stop)

/-- A span in short form, `start..stop`. -/
def dotted (span : Span) : Except Fault String :=
  (span.stop).map fun stop => span.start.decimal ++ ".." ++ stop.decimal

/-- A span as a half-open interval, `[start, stop)`. -/
def interval (span : Span) : Except Fault String :=
  (span.stop).map fun stop =>
    "[" ++ span.start.decimal ++ ", " ++ stop.decimal ++ ")"

/-- A span between two offsets in order starts at the first and is as long as
their distance. -/
theorem between_eq_ok
    {start stop : Word}
    (hle : start ≤ stop) :
    between start stop = .ok ⟨start, stop - start⟩ :=
  if_pos hle

end Span
end LoxLexer

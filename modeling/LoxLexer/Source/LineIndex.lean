import LoxLexer.Word

/-!
# Line indexes

The index of a source holds the offset at which each of its lines starts, in
increasing order.  Only a line feed starts a new line.  The line of a position
is found by bisection: it is the number of lines that start at or before it.

A line and a column count from one.
-/

namespace LoxLexer

/-- A place in a source, as a reader counts: line and column, from one. -/
structure Place where
  line : Word
  column : Word
deriving DecidableEq

/-- The offsets at which the lines of a source start. -/
structure LineIndex where
  starts : Array Word

namespace LineIndex

/-- The offsets one past each line feed of a text. -/
def startsAfterFeeds (text : List Char) : List Word :=
  text.zipIdx.filterMap fun (c, offset) =>
    if c = '\n' then some (Word.ofCount (offset + 1)) else none

/-- The index of a text: its first line starts at zero, every other one past a
line feed. -/
def ofChars (text : List Char) : LineIndex :=
  ⟨(0 :: startsAfterFeeds text).toArray⟩

/-- The first entry between `low` and `high` that lies after `position`, found
by halving; `high` if there is none. -/
def bisect (starts : Array Word) (position : Word) (low high : Nat) : Nat :=
  if low < high then
    let middle := low + (high - low) / 2
    match starts[middle]? with
    | some start =>
      if start ≤ position then
        bisect starts position (middle + 1) high
      else
        bisect starts position low middle
    | none => bisect starts position low middle
  else
    low
termination_by high - low

/-- The line of a position; a position past the end is on the last line. -/
def lineOf (index : LineIndex) (position : Word) : Word :=
  Word.ofCount (bisect index.starts position 0 index.starts.size)

/-- The line and the column of a position. -/
def placeOf (index : LineIndex) (position : Word) : Except Fault Place := do
  let line := index.lineOf position
  let row ← Word.checkedSub line 1
  match index.starts[row.toNat]? with
  | none => .error .lineOutOfRange
  | some start =>
    let distance ← Word.checkedSub position start
    let column ← Word.checkedAdd distance 1
    return ⟨line, column⟩

end LineIndex
end LoxLexer

/-!
# Position words

Offsets, lengths, lines and columns are 32-bit words.  A count that comes from
a text is reduced to a word by `Word.ofCount`; arithmetic on words that are
already there is checked, and an answer that does not fit is a `Fault`.

The faults are kept apart from the errors a source can contain: a fault is a
failure of the bookkeeping itself.
-/

namespace LoxLexer

/-- An offset, length, line or column. -/
abbrev Word := UInt32

/-- A step of position arithmetic that has no answer. -/
inductive Fault where
  /-- A sum does not fit in a word. -/
  | addOverflow
  /-- A difference would be negative. -/
  | subtractOverflow
  /-- A span was asked for whose end lies before its start. -/
  | endBeforeStart
  /-- A line was asked for that the index does not hold. -/
  | lineOutOfRange
deriving DecidableEq

/-- The text that a fault is reported with. -/
def Fault.message : Fault → String
  | .addOverflow => "attempt to add with overflow"
  | .subtractOverflow => "attempt to subtract with overflow"
  | .endBeforeStart => "assertion failed: end >= start"
  | .lineOutOfRange => "index out of bounds"

namespace Word

/-- The word of a count: the count itself whenever it fits. -/
def ofCount (count : Nat) : Word := UInt32.ofNat count

/-- The word `count` further on than `word`. -/
def advance (word : Word) (count : Nat) : Except Fault Word :=
  if word.toNat + count < UInt32.size then
    .ok (word + ofCount count)
  else
    .error .addOverflow

/-- The sum of two words. -/
def checkedAdd (left right : Word) : Except Fault Word :=
  advance left right.toNat

/-- The difference of two words. -/
def checkedSub (left right : Word) : Except Fault Word :=
  if right ≤ left then
    .ok (left - right)
  else
    .error .subtractOverflow

/-- A word in decimal. -/
def decimal (word : Word) : String := word.toNat.repr

/-- A count that fits is kept. -/
theorem toNat_ofCount
    {count : Nat}
    (hcount : count < UInt32.size) :
    (ofCount count).toNat = count :=
  UInt32.toNat_ofNat_of_lt hcount

/-- Advancing within range adds the count. -/
theorem advance_eq_ok
    {word : Word} {count : Nat}
    (hsum : word.toNat + count < UInt32.size) :
    advance word count = .ok (ofCount (word.toNat + count)) := by
  have hword : word + ofCount count = ofCount (word.toNat + count) := by
    apply UInt32.toNat_inj.mp
    simp [ofCount, UInt32.toNat_add]
  rw [advance, if_pos hsum, hword]

/-- Advancing faults exactly when the sum does not fit. -/
theorem advance_eq_error_iff
    {word : Word} {count : Nat} {fault : Fault} :
    advance word count = .error fault ↔
      UInt32.size ≤ word.toNat + count ∧ fault = .addOverflow := by
  unfold advance
  split
  · simp only [reduceCtorEq, false_iff]
    omega
  · simp only [Except.error.injEq]
    constructor
    · rintro rfl
      exact ⟨by omega, rfl⟩
    · rintro ⟨-, rfl⟩
      rfl

/-- A difference that is not negative is exact. -/
theorem checkedSub_eq_ok
    {left right : Word}
    (hle : right.toNat ≤ left.toNat) :
    checkedSub left right = .ok (ofCount (left.toNat - right.toNat)) := by
  have hword : right ≤ left := UInt32.le_iff_toNat_le.mpr hle
  have hsub : left - right = ofCount (left.toNat - right.toNat) := by
    apply UInt32.toNat_inj.mp
    have hleft := left.toNat_lt
    rw [UInt32.toNat_sub_of_le _ _ hword, toNat_ofCount]
    exact Nat.lt_of_le_of_lt (Nat.sub_le _ _) hleft
  rw [checkedSub, if_pos hword, hsub]

end Word
end LoxLexer

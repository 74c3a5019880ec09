import LoxLexer.Text.Cluster.Basic

/-!
# Backspaces

A backspace in a line that was typed takes back the cluster of characters
before it, if there is one, and leaves nothing of itself.

How much a cluster is worth is remembered as its length in bytes, and a single
byte holds that length: of a cluster of 256 bytes or more only the excess over
a multiple of 256 is taken back, from its end.  The excess can end inside a
character, where no text can be cut and a line editor fails; here that character
stays.
-/

namespace LoxLexer
namespace Backspace

/-- The backspace character. -/
def mark : Char := '\x08'

/-- The length of a text in bytes. -/
def byteLength : List Char → Nat
  | [] => 0
  | c :: others => c.utf8Size + byteLength others

/-- The length that is remembered of a cluster. -/
def rememberedLength (cluster : List Char) : Nat := byteLength cluster % 256

/-- A text without the characters at its beginning that together make up at
most so many bytes.  A character inside which the bytes end is kept whole; only
the excess of a cluster of 256 bytes or more can end there. -/
def dropBytes (count : Nat) : List Char → List Char
  | [] => []
  | c :: others =>
    if c.utf8Size ≤ count then dropBytes (count - c.utf8Size) others else c :: others

/-- What is left of the clusters read so far. -/
structure Kept where
  /-- The characters, last first. -/
  text : List Char
  /-- The lengths of the clusters, last first. -/
  lengths : List Nat

namespace Kept

/-- What is left after one more cluster. -/
def next (kept : Kept) (cluster : List Char) : Kept :=
  if cluster = [mark] then
    match kept.lengths with
    | [] => kept
    | length :: others => ⟨dropBytes length kept.text, others⟩
  else
    ⟨cluster.reverse ++ kept.text, rememberedLength cluster :: kept.lengths⟩

end Kept

/-- A line after its backspaces. -/
def apply (line : List Char) : List Char :=
  if mark ∈ line then
    ((Cluster.split line).foldl Kept.next ⟨[], []⟩).text.reverse
  else
    line

/-- A line without a backspace stays as it is. -/
theorem apply_eq_self
    {line : List Char}
    (hmark : mark ∉ line) :
    apply line = line :=
  if_neg hmark

end Backspace
end LoxLexer

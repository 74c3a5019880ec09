/-!
# Lines

A text is cut into lines at its line feeds.  The feed belongs to no line, and
neither does one carriage return directly before it; a feed at the very end
opens no further line, and the last line keeps its carriage return if no feed
follows it.

The rule is stated once for any alphabet with a feed and a return: it serves
the characters of a source and the bytes of an input stream alike.
-/

namespace LoxLexer
namespace Lines

variable {α : Type} [DecidableEq α]

/-- A line without the carriage return at its end, if it has one. -/
def withoutReturn (carriageReturn : α) (line : List α) : List α :=
  if line.getLast? = some carriageReturn then line.dropLast else line

/-- The lines of a text. -/
def split (feed carriageReturn : α) (text : List α) : List (List α) :=
  match text with
  | [] => []
  | first :: others =>
    match _hdrop : (first :: others).dropWhile (· ≠ feed) with
    | [] => [first :: others]
    | _ :: rest =>
      withoutReturn carriageReturn ((first :: others).takeWhile (· ≠ feed)) ::
        split feed carriageReturn rest
termination_by text.length
decreasing_by
  have hlength := (List.dropWhile_suffix (l := first :: others) (· ≠ feed)).length_le
  rw [_hdrop] at hlength
  simp only [List.length_cons] at hlength ⊢
  omega

/-- The lines of a source. -/
def ofChars (text : List Char) : List (List Char) := split '\n' '\r' text

/-- The lines of a byte stream. -/
def ofBytes (bytes : List UInt8) : List (List UInt8) := split 10 13 bytes

/-- The empty text has no line. -/
theorem split_nil
    (feed carriageReturn : α) :
    split feed carriageReturn [] = [] := by
  rw [split]

/-- A non-empty text without a feed is one line, kept whole. -/
theorem split_of_not_mem
    {feed carriageReturn : α} {text : List α}
    (hne : text ≠ [])
    (hfeed : feed ∉ text) :
    split feed carriageReturn text = [text] := by
  cases text with
  | nil => exact absurd rfl hne
  | cons first others =>
    have hall : ∀ c ∈ first :: others, decide (c ≠ feed) = true := by
      intro c hc
      simp only [decide_eq_true_eq]
      rintro rfl
      exact hfeed hc
    have hdrop : (first :: others).dropWhile (· ≠ feed) = [] := by
      have happend : (first :: others ++ []).dropWhile (· ≠ feed) = [].dropWhile (· ≠ feed) :=
        List.dropWhile_append_of_pos hall
      simpa using happend
    rw [split]
    split
    · rfl
    · rename_i heq
      rw [hdrop] at heq
      cases heq

/-- The text before the first feed is a line of its own; the lines of what
follows the feed come after it. -/
theorem split_append_feed
    {feed carriageReturn : α} {line : List α}
    (hfeed : feed ∉ line)
    (rest : List α) :
    split feed carriageReturn (line ++ feed :: rest) =
      withoutReturn carriageReturn line :: split feed carriageReturn rest := by
  have hall : ∀ c ∈ line, decide (c ≠ feed) = true := by
    intro c hc
    simp only [decide_eq_true_eq]
    rintro rfl
    exact hfeed hc
  have hdrop : (line ++ feed :: rest).dropWhile (· ≠ feed) = feed :: rest := by
    rw [List.dropWhile_append_of_pos hall]
    simp
  have htake : (line ++ feed :: rest).takeWhile (· ≠ feed) = line := by
    rw [List.takeWhile_append_of_pos hall]
    simp
  cases hshape : line ++ feed :: rest with
  | nil => simp at hshape
  | cons first others =>
    rw [hshape] at hdrop htake
    rw [split]
    split
    · rename_i heq
      rw [hdrop] at heq
      cases heq
    · rename_i heq
      rw [hdrop] at heq
      cases heq
      rw [htake]

end Lines
end LoxLexer

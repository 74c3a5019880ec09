import LoxLexer.Lexeme.Basic

/-!
# The first lexeme of a source

The first lexeme of a source that is not empty is found from its first
character; where that does not settle it, from at most two more, and then from
how far a run of like characters goes.  What remains is returned beside it.

The main statements are that nothing is lost (`text_append_rest`) and that
something is always taken (`rest_length_lt`).
-/

namespace LoxLexer
namespace Lexeme

/-- The mark that begins a source, one character or two. -/
def firstOperator (mark : Punctuation) (others : List Char) : Lexeme × List Char :=
  match mark.withEqual?, others with
  | some long, '=' :: rest => (.operator long, rest)
  | _, _ => (.operator mark, others)

/-- The word that begins a source. -/
def firstWord (source : List Char) : Lexeme × List Char :=
  (.word (source.takeWhile isWordPart), source.dropWhile isWordPart)

/-- The number that begins a source.  A point belongs to it only if a digit
follows. -/
def firstNumber (source : List Char) : Lexeme × List Char :=
  let whole := source.takeWhile Char.isDigit
  match source.dropWhile Char.isDigit with
  | '.' :: digit :: others =>
    if digit.isDigit then
      (.number whole (some ((digit :: others).takeWhile Char.isDigit)),
        (digit :: others).dropWhile Char.isDigit)
    else
      (.number whole none, '.' :: digit :: others)
  | rest => (.number whole none, rest)

/-- The string whose opening quote stands before the given characters. -/
def firstString (others : List Char) : Lexeme × List Char :=
  let body := others.takeWhile isStringPart
  match others.dropWhile isStringPart with
  | [] => (.unterminated body, [])
  | _ :: rest => (.string body, rest)

/-- The comment whose two slashes stand before the given characters. -/
def firstComment (others : List Char) : Lexeme × List Char :=
  (.comment (others.takeWhile isCommentPart), others.dropWhile isCommentPart)

/-- The first lexeme of a source, given by its first character and the others,
and the rest after it. -/
def first (c : Char) (others : List Char) : Lexeme × List Char :=
  if c = '\n' then (.lineFeed, others)
  else if isBlank c then (.blank c, others)
  else if c = '"' then firstString others
  else if c.isDigit then firstNumber (c :: others)
  else if isWordStart c then firstWord (c :: others)
  else if c = '/' ∧ others.head? = some '/' then firstComment others.tail
  else
    match Punctuation.ofChar? c with
    | some mark => firstOperator mark others
    | none => (.unexpected c, others)

/-- A mark and the rest after it make up the source. -/
theorem text_append_firstOperator
    {c : Char} {mark : Punctuation}
    (hmark : Punctuation.ofChar? c = some mark)
    (others : List Char) :
    (firstOperator mark others).1.text ++ (firstOperator mark others).2 = c :: others := by
  have htext := Punctuation.text_of_ofChar?_eq_some hmark
  unfold firstOperator
  split
  · rename_i hlong
    simp [text, Punctuation.text_of_withEqual?_eq_some hlong, htext]
  · simp [text, htext]

/-- A number and the rest after it make up the source. -/
theorem text_append_firstNumber
    (source : List Char) :
    (firstNumber source).1.text ++ (firstNumber source).2 = source := by
  have hparts := List.takeWhile_append_dropWhile (p := Char.isDigit) (l := source)
  unfold firstNumber
  split
  · rename_i digit more hrest
    rw [hrest] at hparts
    split
    · have hfraction :=
        List.takeWhile_append_dropWhile (p := Char.isDigit) (l := digit :: more)
      simp only [text, List.append_assoc, List.cons_append]
      rw [hfraction, hparts]
    · exact hparts
  · exact hparts

/-- A string and the rest after it make up the source. -/
theorem text_append_firstString
    (others : List Char) :
    (firstString others).1.text ++ (firstString others).2 = '"' :: others := by
  have hparts := List.takeWhile_append_dropWhile (p := isStringPart) (l := others)
  unfold firstString
  split
  · rename_i hrest
    rw [hrest, List.append_nil] at hparts
    simp only [text, hparts, List.append_nil]
  · rename_i quote rest hrest
    have hne : others.dropWhile isStringPart ≠ [] := by
      rw [hrest]
      exact List.cons_ne_nil _ _
    have hhead : quote = '"' := by
      have hnot := List.head_dropWhile_not isStringPart hne
      simp only [hrest, List.head_cons] at hnot
      simpa [isStringPart] using hnot
    rw [hrest, hhead] at hparts
    simp only [text, List.cons_append, List.append_assoc, List.nil_append]
    rw [hparts]

/-- A comment and the rest after it make up the source. -/
theorem text_append_firstComment
    (others : List Char) :
    (firstComment others).1.text ++ (firstComment others).2 = '/' :: '/' :: others := by
  simp only [firstComment, text, List.cons_append, List.takeWhile_append_dropWhile]

/-- The first lexeme and the rest make up the source. -/
theorem text_append_rest
    (c : Char) (others : List Char) :
    (first c others).1.text ++ (first c others).2 = c :: others := by
  unfold first
  split
  · rename_i hfeed
    rw [hfeed]
    rfl
  split
  · rfl
  split
  · rename_i hquote
    rw [hquote]
    exact text_append_firstString others
  split
  · exact text_append_firstNumber (c :: others)
  split
  · exact List.takeWhile_append_dropWhile
  split
  · rename_i hslashes
    obtain ⟨hslash, hhead⟩ := hslashes
    obtain ⟨tail, rfl⟩ := List.head?_eq_some_iff.mp hhead
    rw [hslash]
    exact text_append_firstComment tail
  split
  · rename_i hmark
    exact text_append_firstOperator hmark others
  · rfl

/-- No first lexeme is empty. -/
theorem text_first_ne_nil
    (c : Char) (others : List Char) :
    (first c others).1.text ≠ [] := by
  unfold first
  split
  · simp [text]
  split
  · simp [text]
  split
  · unfold firstString
    split <;> simp [text]
  split
  · rename_i hdigit
    unfold firstNumber
    split
    · split <;> simp [text, hdigit]
    · simp [text, hdigit]
  split
  · rename_i hstart
    simp [firstWord, text, isWordPart, hstart]
  split
  · simp [firstComment, text]
  split
  · unfold firstOperator
    split
    · simp only [text]
      exact Punctuation.text_ne_nil _
    · simp only [text]
      exact Punctuation.text_ne_nil _
  · simp [text]

/-- The rest after the first lexeme is shorter than the source. -/
theorem rest_length_lt
    (c : Char) (others : List Char) :
    (first c others).2.length < (c :: others).length := by
  have hparts := congrArg List.length (text_append_rest c others)
  have hpos := List.length_pos_iff.mpr (text_first_ne_nil c others)
  rw [List.length_append] at hparts
  omega

end Lexeme
end LoxLexer

import LoxLexer.Word

/-!
# Message templates

A template is a text in which a number in braces stands for an argument.  The
arguments are put in one after the other: each replaces its placeholder
everywhere in the text as it is by then, so a placeholder that comes in with
an argument is filled by a later one.  A placeholder without an argument stays
as it is.

The catalogue holds the two errors that a source can contain.
-/

namespace LoxLexer

/-- A message text with placeholders, and the code it is known by. -/
structure Template where
  code : Word
  text : String

namespace Template

/-- The placeholder of an argument, counted from zero. -/
def placeholder (index : Nat) : List Char :=
  '{' :: (Nat.toDigits 10 index ++ ['}'])

/-- A text with each occurrence of a pattern replaced, from left to right; what
is put in is not looked at again.  The pattern is not empty. -/
def replaceAll (pattern replacement text : List Char) : List Char :=
  match text with
  | [] => []
  | c :: others =>
    if pattern.isPrefixOf (c :: others) then
      replacement ++ replaceAll pattern replacement (others.drop (pattern.length - 1))
    else
      c :: replaceAll pattern replacement others
termination_by text.length
decreasing_by
  · simp only [List.length_drop, List.length_cons]
    omega
  · simp

/-- A text with the placeholders of all arguments replaced, the first argument
first. -/
def fill (text : String) (arguments : List String) : String :=
  String.ofList <|
    arguments.zipIdx.foldl
      (fun filled (argument, index) =>
        replaceAll (placeholder index) argument.toList filled)
      text.toList

/-- A character that begins no lexeme. -/
def unexpectedCharacter : Template :=
  ⟨1001, "Unexpected character '\x7b0\x7d'."⟩

/-- A string without a closing quote. -/
def unterminatedString : Template :=
  ⟨1002, "Unterminated string."⟩

/-- Nothing is replaced in the empty text. -/
theorem replaceAll_nil
    (pattern replacement : List Char) :
    replaceAll pattern replacement [] = [] := by
  rw [replaceAll]

/-- Where the pattern does not stand, the text is kept. -/
theorem replaceAll_cons_of_not_isPrefixOf
    {pattern : List Char} {c : Char} {others : List Char}
    (hpattern : pattern.isPrefixOf (c :: others) = false)
    (replacement : List Char) :
    replaceAll pattern replacement (c :: others) =
      c :: replaceAll pattern replacement others := by
  rw [replaceAll]
  simp [hpattern]

/-- Where the pattern stands, the replacement takes its place. -/
theorem replaceAll_append
    {pattern : List Char}
    (hne : pattern ≠ [])
    (replacement text : List Char) :
    replaceAll pattern replacement (pattern ++ text) =
      replacement ++ replaceAll pattern replacement text := by
  cases pattern with
  | nil => exact absurd rfl hne
  | cons c others =>
    rw [List.cons_append, replaceAll]
    have hstands : (c :: others).isPrefixOf (c :: (others ++ text)) = true := by
      simp [List.isPrefixOf_iff_prefix]
    simp [hstands]

end Template
end LoxLexer

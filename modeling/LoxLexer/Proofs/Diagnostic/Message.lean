import LoxLexer.Diagnostic.Basic

/-!
# Messages of the two errors

Filling a template leaves alone every part of it that holds no opening brace.
From this the messages of the two errors of a source are read off for every
character and every string.
-/

namespace LoxLexer
namespace Template

/-- A text without the pattern's first character is kept. -/
theorem replaceAll_append_of_not_mem
    {first : Char} {pattern front : List Char}
    (hfront : first ∉ front)
    (replacement back : List Char) :
    replaceAll (first :: pattern) replacement (front ++ back) =
      front ++ replaceAll (first :: pattern) replacement back := by
  induction front with
  | nil => rfl
  | cons c others ih =>
      rw [List.mem_cons, not_or] at hfront
      obtain ⟨hne, hothers⟩ := hfront
      have habsent :
          (first :: pattern).isPrefixOf (c :: (others ++ back)) = false := by
        simp [List.isPrefixOf, hne]
      rw [List.cons_append, replaceAll_cons_of_not_isPrefixOf habsent, ih hothers]
      rfl

theorem replaceAll_of_not_mem
    {first : Char} {pattern text : List Char}
    (htext : first ∉ text)
    (replacement : List Char) :
    replaceAll (first :: pattern) replacement text = text := by
  have happend : replaceAll (first :: pattern) replacement (text ++ []) =
      text ++ replaceAll (first :: pattern) replacement [] :=
    replaceAll_append_of_not_mem htext replacement []
  rwa [List.append_nil, replaceAll_nil, List.append_nil] at happend

theorem fill_nil (text : String) : fill text [] = text := by
  simp [fill]

/-- One argument in a text with one placeholder takes its place, whatever the
argument is. -/
theorem fill_singleton
    {front back : List Char}
    (hfront : '{' ∉ front)
    (hback : '{' ∉ back)
    (argument : String) :
    fill (String.ofList (front ++ placeholder 0 ++ back)) [argument] =
      String.ofList (front ++ argument.toList ++ back) := by
  have hfill : replaceAll (placeholder 0) argument.toList
      (front ++ (placeholder 0 ++ back)) = front ++ (argument.toList ++ back) := by
    rw [placeholder, replaceAll_append_of_not_mem hfront,
      replaceAll_append (List.cons_ne_nil _ _), replaceAll_of_not_mem hback]
  simp [fill, hfill]

end Template

namespace Diagnostic

/-- The diagnostic of an unexpected character names the character. -/
theorem ofTemplate_unexpectedCharacter
    (line : Word) (c : Char) :
    ofTemplate line Template.unexpectedCharacter [String.singleton c] =
      ⟨none, line, none, "Unexpected character '" ++ String.singleton c ++ "'.", 1001⟩ := by
  have hfront : '\x7b' ∉ "Unexpected character '".toList := by decide
  have hback : '\x7b' ∉ "'.".toList := by decide
  have hfill := Template.fill_singleton hfront hback (String.singleton c)
  have htext : Template.unexpectedCharacter.text =
      String.ofList ("Unexpected character '".toList ++ Template.placeholder 0 ++
        "'.".toList) := by
    decide
  rw [ofTemplate, htext, hfill]
  simp only [String.ofList_append, String.ofList_toList]
  rfl

theorem ofTemplate_unterminatedString
    (line : Word) :
    ofTemplate line Template.unterminatedString [] =
      ⟨none, line, none, "Unterminated string.", 1002⟩ := by
  rw [ofTemplate, Template.fill_nil]
  rfl

end Diagnostic
end LoxLexer

import LoxLexer.Proofs.Decimal.Alphabet
import LoxLexer.Proofs.Token.TextDump

/-!
# The lines of a text dump

Where no lexeme holds a line feed, a text dump has one line for each token, and
the line of the end of the input is like no other.  To delete it from the text
is to leave the end of the input out of the tokens.
-/

namespace LoxLexer

open Grammar

/-- A text without those of its lines that are like the given one. -/
def withoutLine (line : List Char) (text : List Char) : List Char :=
  ['\n'].intercalate ((text.splitOn '\n').filter fun other => other ≠ line)

/-- The line of the end of the input. -/
def endLine : List Char := "EOF  null".toList

theorem intercalate_append_nil (lines : List (List Char)) :
    ['\n'].intercalate (lines ++ [[]]) = lines.flatMap fun line => line ++ ['\n'] := by
  induction lines with
  | nil => rfl
  | cons line others ih =>
      obtain ⟨next, more, hmore⟩ :=
        List.exists_cons_of_ne_nil (List.append_ne_nil_of_right_ne_nil others
          (List.cons_ne_nil ([] : List Char) []))
      rw [List.cons_append, hmore, List.intercalate_cons_cons, ← hmore, ih, List.flatMap_cons,
        List.append_assoc]

/-- Lines that each end with a feed are found again by cutting at the feeds. -/
theorem splitOn_flatMap
    {lines : List (List Char)}
    (hlines : ∀ line ∈ lines, '\n' ∉ line) :
    (lines.flatMap fun line => line ++ ['\n']).splitOn '\n' = lines ++ [[]] := by
  have hpieces : ∀ piece ∈ lines ++ [[]], '\n' ∉ piece := by
    intro piece hpiece
    rcases List.mem_append.mp hpiece with hpiece | hpiece
    · exact hlines piece hpiece
    · rw [List.mem_singleton.mp hpiece]
      exact List.not_mem_nil
  have hne : lines ++ [[]] ≠ [] :=
    List.append_ne_nil_of_right_ne_nil lines (List.cons_ne_nil [] [])
  rw [← intercalate_append_nil, List.splitOn_intercalate '\n' hpieces hne]

/-- Lines that are told apart by their feeds are kept or left out one by one. -/
theorem withoutLine_flatMap
    {line : List Char} {lines : List (List Char)}
    (hline : line ≠ [])
    (hlines : ∀ other ∈ lines, '\n' ∉ other) :
    withoutLine line (lines.flatMap fun other => other ++ ['\n']) =
      (lines.filter fun other => other ≠ line).flatMap fun other => other ++ ['\n'] := by
  have hlast : ([[]] : List (List Char)).filter (fun other => other ≠ line) = [[]] := by
    rw [List.filter_singleton, decide_eq_true (Ne.symm hline)]
    rfl
  rw [withoutLine, splitOn_flatMap hlines, List.filter_append, hlast, intercalate_append_nil]

/-- Only strings mean strings. -/
theorem Lexeme.text_eq_of_meaning_string
    {lexeme : Lexeme} {kind : Kind} {value : String}
    (hmeaning : lexeme.meaning = .token kind (some (.string value))) :
    lexeme.text = '"' :: (value.toList ++ ['"']) := by
  cases lexeme with
  | string body =>
      cases hmeaning
      rw [String.toList_ofList]
      rfl
  | _ => cases hmeaning

namespace Token

variable {token : Token}

/-- The string of a token stands in its lexeme, a number has no line feed. -/
theorem Spelled.lineFeed_not_mem_literalText
    (htoken : token.Spelled)
    (hlexeme : '\n' ∉ token.lexeme.toList) :
    '\n' ∉ token.literalText.toList := by
  unfold literalText
  cases hliteral : token.literal with
  | none => decide
  | some literal =>
      cases literal with
      | number value => exact Literal.lineFeed_not_mem_numberText value
      | string value =>
          rcases htoken with hdenotes | ⟨-, -, hnone⟩
          · obtain ⟨lexeme, hvalid, htext, hmeaning⟩ := denotes_iff.mp hdenotes
            rw [hliteral] at hmeaning
            rw [← htext, Lexeme.text_eq_of_meaning_string hmeaning] at hlexeme
            simp only [List.mem_cons, List.mem_append, not_or] at hlexeme
            exact hlexeme.2.1
          · rw [hliteral] at hnone
            cases hnone

/-- The text of a token is within a line if its lexeme is. -/
theorem Spelled.lineFeed_not_mem_text
    (htoken : token.Spelled)
    (hlexeme : '\n' ∉ token.lexeme.toList) :
    '\n' ∉ token.text.toList := by
  have hname : ∀ kind ∈ Kind.all, '\n' ∉ kind.name.toList := by decide
  have hliteral := htoken.lineFeed_not_mem_literalText hlexeme
  simp only [text, String.toList_append, List.mem_append, not_or]
  refine ⟨⟨⟨⟨hname _ (Kind.mem_all token.kind), ?_⟩, hlexeme⟩, ?_⟩, hliteral⟩
  · decide
  · decide

theorem Spelled.of_isEnd
    (htoken : token.Spelled)
    (hend : token.isEnd = true) :
    token.lexeme = "" ∧ token.literal = none := by
  have hkind : token.kind = .endOfInput := by simpa [isEnd] using hend
  rcases htoken with hdenotes | ⟨-, hempty, hnone⟩
  · obtain ⟨lexeme, -, -, hmeaning⟩ := denotes_iff.mp hdenotes
    exact absurd hkind (kind_ne_endOfInput hmeaning)
  · exact ⟨hempty, hnone⟩

/-- The end of the input has its line, and no other token has it. -/
theorem Spelled.text_eq_endLine_iff
    (htoken : token.Spelled) :
    token.text.toList = endLine ↔ token.isEnd = true := by
  constructor
  · intro htext
    have hparts : token.kind.name.toList ++ ' ' ::
        (token.lexeme.toList ++ ' ' :: token.literalText.toList) =
          Kind.endOfInput.name.toList ++ ' ' :: ' ' :: "null".toList := by
      rw [show Kind.endOfInput.name.toList ++ ' ' :: ' ' :: "null".toList = endLine from rfl,
        ← htext]
      simp [text]
    have hname := eq_of_append_cons_eq token.kind.blank_not_mem_name
      Kind.endOfInput.blank_not_mem_name hparts
    have hkind : token.kind = .endOfInput :=
      Kind.name_injective (String.toList_injective hname)
    rw [isEnd, hkind]
    rfl
  · intro hend
    have hkind : token.kind = .endOfInput := by simpa [isEnd] using hend
    obtain ⟨hempty, hnone⟩ := htoken.of_isEnd hend
    rw [text, literalText, hkind, hempty, hnone]
    rfl

/-- Without its line a dump is that of the tokens without the end of the input. -/
theorem withoutLine_dump
    {tokens : List Token}
    (htokens : ∀ token ∈ tokens, token.Spelled)
    (hlexemes : ∀ token ∈ tokens, '\n' ∉ token.lexeme.toList) :
    withoutLine endLine (dump .text tokens).toList =
      (tokens.filter fun token => !token.isEnd).flatMap entry := by
  have hlines : ∀ line ∈ tokens.map (fun token => token.text.toList), '\n' ∉ line := by
    intro line hline
    obtain ⟨token, hmem, rfl⟩ := List.mem_map.mp hline
    exact (htokens token hmem).lineFeed_not_mem_text (hlexemes token hmem)
  have hends : endLine ≠ [] := by decide
  have hdump : (dump .text tokens).toList =
      (tokens.map fun token => token.text.toList).flatMap fun line => line ++ ['\n'] := by
    rw [toList_dump_text, List.flatMap_map]
    rfl
  rw [hdump, withoutLine_flatMap hends hlines, List.filter_map, List.flatMap_map]
  congr 1
  apply List.filter_congr
  intro token hmem
  simp only [Function.comp, (htokens token hmem).text_eq_endLine_iff, ne_eq]
  simp

end Token

end LoxLexer

import LoxLexer.Proofs.Grammar.Basic

/-!
# Layout

Layout is the text between tokens and errors: blanks and comments.  A comment
ends only where its line or the source ends, so whether a text is layout
depends on what comes after it.
-/

namespace LoxLexer
namespace Grammar

/-- `IsLayout text rest`: a text that is followed by `rest` consists of blanks
and of comments, each of which runs to a line feed or to the end of the
source. -/
inductive IsLayout : List Char → List Char → Prop
  | nil {rest : List Char} : IsLayout [] rest
  | blank {c : Char} {text rest : List Char} :
      IsBlank c → IsLayout text rest → IsLayout (c :: text) rest
  | comment {body text rest : List Char} :
      '\n' ∉ body →
      text ++ rest = [] ∨ (text ++ rest).head? = some '\n' →
      IsLayout text rest →
      IsLayout ('/' :: '/' :: (body ++ text)) rest

/-- A lexeme that means nothing is layout before layout. -/
theorem IsLayout.append_text
    {lexeme : Lexeme} {text rest : List Char}
    (hlayout : IsLayout text rest)
    (hvalid : lexeme.Valid)
    (hstops : lexeme.Stops (text ++ rest))
    (hmeaning : lexeme.meaning = .nothing) :
    IsLayout (lexeme.text ++ text) rest := by
  cases lexeme with
  | comment body =>
      refine .comment hvalid ?_ hlayout
      cases hafter : text ++ rest with
      | nil => exact Or.inl rfl
      | cons c others =>
          rw [hafter] at hstops
          have hfeed : Lexeme.isCommentPart c = false := headAvoids_cons_iff.mp hstops
          exact Or.inr (by simpa [Lexeme.isCommentPart] using hfeed)
  | blank c => exact .blank (isBlank_iff.mpr (Or.inl hvalid)) hlayout
  | lineFeed => exact .blank (isBlank_iff.mpr (Or.inr rfl)) hlayout
  | _ => cases hmeaning

end Grammar
end LoxLexer

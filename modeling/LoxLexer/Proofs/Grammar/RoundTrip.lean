import LoxLexer.Proofs.Grammar.LongestMatch

/-!
# Printing and scanning

A printout sets pieces one after the other, with layout before them, between
them and after them.  Between two pieces the layout begins with a blank, and
its comments are complete, so that no piece and no comment runs into the next.

Scanning a printout gives back its pieces, each where it was set, and no
diagnostic.
-/

namespace LoxLexer
namespace Grammar

/-- Blanks and complete comments, in any order. -/
inductive IsFiller : List Char → Prop
  | nil : IsFiller []
  | blank {c : Char} {others : List Char} :
      IsBlank c → IsFiller others → IsFiller (c :: others)
  | comment {body others : List Char} :
      '\n' ∉ body → IsFiller others → IsFiller ('/' :: '/' :: (body ++ '\n' :: others))

/-- A blank, and filler after it. -/
def IsSeparator (text : List Char) : Prop :=
  ∃ c filler, text = c :: filler ∧ IsBlank c ∧ IsFiller filler

/-- A piece of a text that becomes a token. -/
structure Piece where
  text : List Char
  kind : Kind
  literal : Option Literal
  denotes : Denotes text kind literal

/-- The token of a piece that stands after a text. -/
def Piece.tokenAfter (before : List Char) (piece : Piece) : Token :=
  ⟨piece.kind, String.ofList piece.text, piece.literal, lineAfter before,
    spanAfter before piece.text⟩

/-- The text of pieces with a separator after each. -/
def entriesText : List (Piece × List Char) → List Char
  | [] => []
  | (piece, separator) :: others => piece.text ++ (separator ++ entriesText others)

/-- The tokens of pieces with a separator after each, set after a text. -/
def entriesTokens (before : List Char) : List (Piece × List Char) → List Token
  | [] => []
  | (piece, separator) :: others =>
    piece.tokenAfter before :: entriesTokens (before ++ piece.text ++ separator) others

/-- Pieces set one after the other: filler before them, a separator after every
piece but the last one, and after that one nothing or a separator. -/
structure Printout where
  lead : List Char
  entries : List (Piece × List Char)
  last : Option Piece
  trail : List Char
  lead_isFiller : IsFiller lead
  entries_separated : ∀ entry ∈ entries, IsSeparator entry.2
  trail_separates : trail = [] ∨ IsSeparator trail

namespace Printout

/-- The text up to the last piece. -/
def front (printout : Printout) : List Char :=
  printout.lead ++ entriesText printout.entries

/-- The text of the last piece. -/
def lastText (printout : Printout) : List Char :=
  (printout.last.map Piece.text).getD []

def text (printout : Printout) : List Char :=
  printout.front ++ (printout.lastText ++ printout.trail)

/-- The tokens of a printout, each where its piece was set, and the end of the
input. -/
def tokens (printout : Printout) : List Token :=
  entriesTokens printout.lead printout.entries ++
    ((printout.last.map (Piece.tokenAfter printout.front)).toList ++
      [⟨.endOfInput, "", none, lineAfter printout.text,
        ⟨Word.ofCount printout.text.length, 0⟩⟩])

end Printout

/-! ## Reading a part of a text -/

/-- A part of a text, between what is before it and what is after it, makes
certain tokens and no diagnostics. -/
structure ReadsAs (before part rest : List Char) (tokens : List Token) : Prop where
  tokens_eq : tokensFrom before (part ++ rest) = tokens ++ tokensFrom (before ++ part) rest
  diagnostics_eq :
    diagnosticsFrom before (part ++ rest) = diagnosticsFrom (before ++ part) rest

namespace ReadsAs

theorem nil (before rest : List Char) : ReadsAs before [] rest [] := by
  constructor
  · rw [List.append_nil, List.nil_append, List.nil_append]
  · rw [List.append_nil, List.nil_append]

theorem append
    {before front back rest : List Char} {tokens others : List Token}
    (hfront : ReadsAs before front (back ++ rest) tokens)
    (hback : ReadsAs (before ++ front) back rest others) :
    ReadsAs before (front ++ back) rest (tokens ++ others) where
  tokens_eq := by
    rw [List.append_assoc, hfront.tokens_eq, hback.tokens_eq, List.append_assoc,
      List.append_assoc]
  diagnostics_eq := by
    rw [List.append_assoc, hfront.diagnostics_eq, hback.diagnostics_eq, List.append_assoc]

/-- A valid lexeme that is not in error makes its token, if it has one. -/
theorem of_lexeme
    {lexeme : Lexeme} {rest : List Char}
    (before : List Char)
    (hvalid : lexeme.Valid)
    (hstops : lexeme.Stops rest)
    (hdiagnostic : (Placed.mk before lexeme).diagnostic? = none) :
    ReadsAs before lexeme.text rest (Placed.mk before lexeme).token?.toList where
  tokens_eq := tokensFrom_append before hvalid hstops
  diagnostics_eq := by
    rw [diagnosticsFrom_append before hvalid hstops, hdiagnostic, Option.toList_none,
      List.nil_append]

end ReadsAs

/-! ## Filler -/

theorem readsAs_blank
    {c : Char}
    (hblank : IsBlank c)
    (before rest : List Char) :
    ReadsAs before [c] rest [] := by
  rcases isBlank_iff.mp hblank with hblank | rfl
  · have hvalid : (Lexeme.blank c).Valid := hblank
    exact ReadsAs.of_lexeme before hvalid trivial rfl
  · have hvalid : Lexeme.lineFeed.Valid := trivial
    exact ReadsAs.of_lexeme before hvalid trivial rfl

theorem readsAs_comment
    {body : List Char}
    (hbody : '\n' ∉ body)
    (before rest : List Char) :
    ReadsAs before ('/' :: '/' :: (body ++ ['\n'])) rest [] := by
  have hvalid : (Lexeme.comment body).Valid := hbody
  have hstops : (Lexeme.comment body).Stops (['\n'] ++ rest) :=
    headAvoids_cons_iff.mpr (by decide)
  have hcomment := ReadsAs.of_lexeme before hvalid hstops rfl
  have hfeed := readsAs_blank (isBlank_iff.mpr (Or.inr rfl))
    (before ++ (Lexeme.comment body).text) rest
  exact hcomment.append hfeed

/-- Filler makes nothing, whatever comes after it. -/
theorem readsAs_filler
    {filler : List Char}
    (hfiller : IsFiller filler)
    (before rest : List Char) :
    ReadsAs before filler rest [] := by
  induction hfiller generalizing before with
  | nil => exact ReadsAs.nil before rest
  | @blank c others hblank _ ih =>
      exact (readsAs_blank hblank before (others ++ rest)).append (ih _)
  | @comment body others hbody _ ih =>
      have hcomment := readsAs_comment hbody before (others ++ rest)
      have hall := hcomment.append (ih _)
      simpa using hall

theorem IsSeparator.isFiller
    {separator : List Char}
    (hseparator : IsSeparator separator) :
    IsFiller separator := by
  obtain ⟨c, filler, rfl, hblank, hfiller⟩ := hseparator
  exact .blank hblank hfiller

theorem isFiller_of_trail
    {trail : List Char}
    (htrail : trail = [] ∨ IsSeparator trail) :
    IsFiller trail := by
  rcases htrail with rfl | hseparator
  · exact .nil
  · exact hseparator.isFiller

/-! ## Pieces -/

/-- A lexeme that makes a token ends before a blank. -/
theorem stops_of_isBlank
    {lexeme : Lexeme} {kind : Kind} {literal : Option Literal} {c : Char}
    (hmeaning : lexeme.meaning = .token kind literal)
    (hblank : IsBlank c)
    (rest : List Char) :
    lexeme.Stops (c :: rest) := by
  have hcomment : ∀ body, lexeme = .comment body → c = '\n' := by
    rintro body rfl
    cases hmeaning
  have hclosed : ∀ body, lexeme ≠ .unterminated body := by
    rintro body rfl
    cases hmeaning
  have hcharacter : c ≠ '=' ∧ c ≠ '/' ∧ c ≠ '.' ∧ Lexeme.isWordPart c = false := by
    rcases hblank with rfl | rfl | rfl | rfl <;> decide
  obtain ⟨hequal, hslash, hpoint, hpart⟩ := hcharacter
  exact Lexeme.stops_cons hequal hslash hpoint hpart hcomment hclosed rest

/-- A piece makes its token before a blank and at the end of the source. -/
theorem readsAs_piece
    {rest : List Char}
    (piece : Piece)
    (before : List Char)
    (hrest : rest = [] ∨ ∃ c others, rest = c :: others ∧ IsBlank c) :
    ReadsAs before piece.text rest [piece.tokenAfter before] := by
  obtain ⟨lexeme, hvalid, htext, hmeaning⟩ := denotes_iff.mp piece.denotes
  have hstops : lexeme.Stops rest := by
    rcases hrest with rfl | ⟨c, others, rfl, hblank⟩
    · exact Lexeme.stops_nil lexeme
    · exact stops_of_isBlank hmeaning hblank others
  have hdiagnostic : (Placed.mk before lexeme).diagnostic? = none := by
    rw [Placed.diagnostic?, hmeaning]
  have htoken : (Placed.mk before lexeme).token? = some (piece.tokenAfter before) := by
    rw [Placed.token?, hmeaning, Piece.tokenAfter, ← htext]
    rfl
  have hreads := ReadsAs.of_lexeme before hvalid hstops hdiagnostic
  rwa [htoken, htext, Option.toList_some] at hreads

theorem IsSeparator.begins
    {separator : List Char}
    (hseparator : IsSeparator separator)
    (rest : List Char) :
    ∃ c others, separator ++ rest = c :: others ∧ IsBlank c := by
  obtain ⟨c, filler, rfl, hblank, -⟩ := hseparator
  exact ⟨c, filler ++ rest, rfl, hblank⟩

theorem readsAs_entries
    {entries : List (Piece × List Char)}
    (hseparated : ∀ entry ∈ entries, IsSeparator entry.2)
    (before rest : List Char) :
    ReadsAs before (entriesText entries) rest (entriesTokens before entries) := by
  induction entries generalizing before with
  | nil => exact ReadsAs.nil before rest
  | cons entry others ih =>
      obtain ⟨piece, separator⟩ := entry
      obtain ⟨hseparator, hothers⟩ := List.forall_mem_cons.mp hseparated
      obtain ⟨c, after, hbegins, hblank⟩ := hseparator.begins (entriesText others ++ rest)
      rw [← List.append_assoc] at hbegins
      have hpiece := readsAs_piece piece before (Or.inr ⟨c, after, hbegins, hblank⟩)
      have hgap := readsAs_filler hseparator.isFiller (before ++ piece.text)
        (entriesText others ++ rest)
      have hothers := ih hothers (before ++ piece.text ++ separator)
      exact hpiece.append (hgap.append hothers)

namespace Printout

theorem readsAs_front (printout : Printout) (rest : List Char) :
    ReadsAs [] printout.front rest (entriesTokens printout.lead printout.entries) := by
  have hlead := readsAs_filler printout.lead_isFiller [] (entriesText printout.entries ++ rest)
  have hentries := readsAs_entries printout.entries_separated printout.lead rest
  exact hlead.append hentries

theorem readsAs_lastText (printout : Printout) :
    ReadsAs printout.front printout.lastText printout.trail
      (printout.last.map (Piece.tokenAfter printout.front)).toList := by
  cases hlast : printout.last with
  | none =>
      rw [lastText, hlast]
      exact ReadsAs.nil printout.front printout.trail
  | some piece =>
      rw [lastText, hlast]
      apply readsAs_piece piece
      rcases printout.trail_separates with hnil | ⟨c, filler, htrail, hblank, -⟩
      · exact Or.inl hnil
      · exact Or.inr ⟨c, filler, htrail, hblank⟩

theorem readsAs_trail (printout : Printout) :
    ReadsAs (printout.front ++ printout.lastText) printout.trail [] [] :=
  readsAs_filler (isFiller_of_trail printout.trail_separates) _ []

theorem readsAs_text (printout : Printout) :
    ReadsAs [] printout.text [] (entriesTokens printout.lead printout.entries ++
      (printout.last.map (Piece.tokenAfter printout.front)).toList) := by
  have hlast : ReadsAs printout.front printout.lastText (printout.trail ++ [])
      (printout.last.map (Piece.tokenAfter printout.front)).toList := by
    rw [List.append_nil]
    exact printout.readsAs_lastText
  have hback := hlast.append printout.readsAs_trail
  have hfront := printout.readsAs_front ((printout.lastText ++ printout.trail) ++ [])
  have hall := hfront.append hback
  rwa [List.append_nil] at hall

theorem tokensOf_text (printout : Printout) :
    tokensOf printout.text = printout.tokens := by
  have htokens := printout.readsAs_text.tokens_eq
  rw [List.append_nil, List.nil_append, tokensFrom_nil, List.append_assoc] at htokens
  exact htokens

theorem diagnosticsOf_text (printout : Printout) :
    diagnosticsOf printout.text = [] := by
  have hdiagnostics := printout.readsAs_text.diagnostics_eq
  rwa [List.append_nil, List.nil_append, diagnosticsFrom_nil] at hdiagnostics

end Printout

/-- Scanning a printout gives back its pieces. -/
theorem scan_printout
    (printout : Printout)
    (hlength : printout.text.length ≤ 4294967294) :
    ∃ result, scan (String.ofList printout.text) = .ok result ∧
      result.tokens = printout.tokens ∧ result.reports.toList = [] := by
  have hfits : FitsWords (String.ofList printout.text).toList :=
    fitsWords_of_length_le (by rwa [String.length_ofList])
  obtain ⟨result, hresult, htokens, hdiagnostics⟩ := exists_scan_eq_ok hfits
  rw [String.toList_ofList] at htokens hdiagnostics
  refine ⟨result, hresult, ?_, ?_⟩
  · rw [htokens, printout.tokensOf_text]
  · rw [hdiagnostics, printout.diagnosticsOf_text]

/-- A reserved word and a string over two lines, with a comment between them. -/
def Printout.printString : Printout where
  lead := ['\t']
  entries := [(⟨Keyword.printWord.text.toList, .keyword .printWord, none,
    .reserved .printWord⟩, [' ', '/', '/', '"', '\n'])]
  last := some ⟨'"' :: (['a', '\n'] ++ ['"']), .string,
    some (.string (String.ofList ['a', '\n'])), .string (by decide)⟩
  trail := []
  lead_isFiller := .blank (Or.inr (Or.inl rfl)) .nil
  entries_separated := by
    intro entry hentry
    obtain rfl := List.mem_singleton.mp hentry
    have hcomment : IsFiller ('/' :: '/' :: (['"'] ++ ['\n'])) := .comment (by decide) .nil
    exact ⟨' ', _, rfl, Or.inl rfl, hcomment⟩
  trail_separates := Or.inl rfl

theorem scan_printout_printString :
    Printout.printString.text.length ≤ 4294967294 ∧
      ∃ result, scan (String.ofList Printout.printString.text) = .ok result ∧
        result.tokens = Printout.printString.tokens ∧ result.reports.toList = [] :=
  ⟨by decide, scan_printout Printout.printString (by decide)⟩

end Grammar
end LoxLexer

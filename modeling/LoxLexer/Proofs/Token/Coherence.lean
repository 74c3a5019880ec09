import LoxLexer.Proofs.Grammar.Basic
import LoxLexer.Proofs.Scan.Run

/-!
# Coherence of tokens

The kind, the lexeme and the literal of a token belong together: a token has one
of six forms, and each form says what all three are.  Every token of a scan has
exactly one form.

A token carries all that it was made from.  Its lexeme scanned by itself gives
the token back, whatever stood around it in the source.
-/

namespace LoxLexer

open Grammar

/-- The forms of tokens. -/
inductive Token.Form where
  | mark
  | reserved
  | name
  | number
  | string
  | endOfInput
deriving DecidableEq

/-- The kind, the lexeme and the literal of a token are those of a form. -/
def Token.HasForm (token : Token) : Token.Form → Prop
  | .mark => ∃ mark, token.kind = .punctuation mark ∧ token.lexeme = mark.text ∧
      token.literal = none
  | .reserved => ∃ word, token.kind = .keyword word ∧ token.lexeme = word.text ∧
      token.literal = none
  | .name => token.kind = .identifier ∧ IsWord token.lexeme.toList ∧
      Keyword.ofText? token.lexeme = none ∧ token.literal = none
  | .number => token.kind = .number ∧ Belongs .number token.lexeme.toList ∧
      ∃ value, token.literal = some (.number value)
  | .string => token.kind = .string ∧ ∃ value : String, '"' ∉ value.toList ∧
      token.literal = some (.string value) ∧ token.lexeme = "\"" ++ value ++ "\""
  | .endOfInput => token.kind = .endOfInput ∧ token.lexeme = "" ∧ token.literal = none

/-- A token as it is when its lexeme is all there is. -/
def Token.alone (token : Token) : Token :=
  { token with line := 1, span := ⟨0, Word.ofCount token.lexeme.length⟩ }

/-! ## One form for each kind -/

/-- The form of the tokens of a kind. -/
def Token.Form.ofKind : Kind → Token.Form
  | .punctuation _ => .mark
  | .keyword _ => .reserved
  | .identifier => .name
  | .number => .number
  | .string => .string
  | .endOfInput => .endOfInput

/-- The kind of a token leaves it no other form. -/
theorem Token.HasForm.eq_ofKind
    {token : Token} {form : Token.Form}
    (hform : token.HasForm form) :
    form = Form.ofKind token.kind := by
  cases form with
  | mark =>
      obtain ⟨mark, hkind, -⟩ := hform
      rw [hkind]
      rfl
  | reserved =>
      obtain ⟨word, hkind, -⟩ := hform
      rw [hkind]
      rfl
  | name | number | string | endOfInput =>
      rw [hform.1]
      rfl

/-- A piece of the grammar with what it denotes has a form. -/
theorem exists_hasForm_of_denotes
    {text : List Char} {kind : Kind} {literal : Option Literal}
    (hdenotes : Denotes text kind literal)
    (line : Word) (span : Span) :
    ∃ form, (Token.mk kind (String.ofList text) literal line span).HasForm form := by
  cases hdenotes with
  | operator mark =>
      refine ⟨.mark, mark, rfl, ?_, rfl⟩
      rw [String.ofList_toList]
  | reserved word =>
      refine ⟨.reserved, word, rfl, ?_, rfl⟩
      rw [String.ofList_toList]
  | name hword hne =>
      refine ⟨.name, rfl, ?_, ?_, rfl⟩
      · rwa [String.toList_ofList]
      · apply ofText?_eq_none_of_ne
        intro word heq
        apply hne word
        rw [heq, String.toList_ofList]
  | whole hdigits =>
      refine ⟨.number, rfl, ?_, _, rfl⟩
      rw [String.toList_ofList]
      exact .whole hdigits
  | decimal hdigits hplaces =>
      refine ⟨.number, rfl, ?_, _, rfl⟩
      rw [String.toList_ofList]
      exact .decimal hdigits hplaces
  | @string body hbody =>
      refine ⟨.string, rfl, String.ofList body, ?_, rfl, ?_⟩
      · rwa [String.toList_ofList]
      · apply String.toList_injective
        simp

theorem exists_hasForm_of_mem_tokensOf
    {source : List Char} {token : Token}
    (hmem : token ∈ tokensOf source) :
    ∃ form, token.HasForm form := by
  rcases mem_tokensOf_iff.mp hmem with ⟨placed, hplaced, htoken⟩ | rfl
  · obtain ⟨hmeaning, hlexeme, -, -⟩ := Placed.token?_eq_some_iff.mp htoken
    have hvalid := (exists_of_mem_placedOf hplaced).1
    have hdenotes := denotes_iff.mpr ⟨placed.lexeme, hvalid, rfl, hmeaning⟩
    obtain ⟨kind, lexeme, literal, line, span⟩ := token
    obtain rfl := hlexeme
    exact exists_hasForm_of_denotes hdenotes line span
  · exact ⟨.endOfInput, rfl, rfl, rfl⟩

/-! ## A lexeme by itself -/

/-- A valid lexeme by itself is its only piece. -/
theorem placedOf_text
    {lexeme : Lexeme}
    (hvalid : lexeme.Valid) :
    placedOf lexeme.text = [⟨[], lexeme⟩] := by
  have hcut := Lexeme.cut_append hvalid (Lexeme.stops_nil lexeme)
  rw [List.append_nil, Lexeme.cut_nil] at hcut
  rw [placedOf, hcut]
  rfl

/-- The end of the input after the lexeme of a token that stands alone. -/
def Token.endAlone (token : Token) : Token :=
  Token.endOfInput (Word.ofCount (1 + token.lexeme.toList.count '\n'))
    (Word.ofCount token.lexeme.length)

theorem tokensOf_lexeme
    {placed : Placed} {token : Token}
    (hvalid : placed.lexeme.Valid)
    (htoken : placed.token? = some token) :
    tokensOf token.lexeme.toList = [token.alone, token.endAlone] := by
  obtain ⟨hmeaning, hlexeme, -, -⟩ := Placed.token?_eq_some_iff.mp htoken
  have htext : token.lexeme.toList = placed.lexeme.text := by
    rw [hlexeme, String.toList_ofList]
  have hplaced := placedOf_text hvalid
  rw [← htext] at hplaced
  have halone : (Placed.mk [] placed.lexeme).token? = some token.alone := by
    refine Placed.token?_eq_some_iff.mpr ⟨hmeaning, hlexeme, rfl, ?_⟩
    simp only [Token.alone, Placed.span, Placed.start, Lexeme.length]
    rw [← htext, String.length_toList]
    rfl
  rw [placedOf] at hplaced
  rw [tokensOf, tokensFrom, hplaced, List.filterMap_cons, halone, Token.endAlone,
    ← String.length_toList]
  rfl

theorem diagnosticsOf_lexeme
    {placed : Placed} {token : Token}
    (hvalid : placed.lexeme.Valid)
    (htoken : placed.token? = some token) :
    diagnosticsOf token.lexeme.toList = [] := by
  obtain ⟨hmeaning, hlexeme, -, -⟩ := Placed.token?_eq_some_iff.mp htoken
  have hnone : (Placed.mk [] placed.lexeme).diagnostic? = none := by
    rw [Placed.diagnostic?, hmeaning]
  have hplaced := placedOf_text hvalid
  rw [placedOf] at hplaced
  rw [diagnosticsOf, diagnosticsFrom, hlexeme, String.toList_ofList, hplaced,
    List.filterMap_cons, hnone]
  rfl

/-- Every token of a scan has one form and no other, and each but the end of the
input is found again when its lexeme is scanned alone. -/
theorem scan_coherent
    {source : String}
    (hlength : source.length ≤ 4294967294) :
    ∃ result, scan source = .ok result ∧
      (∀ token ∈ result.tokens, ∃! form, token.HasForm form) ∧
      ∀ token ∈ result.tokens, token.kind ≠ .endOfInput →
        ∃ again, scan token.lexeme = .ok again ∧
          again.tokens = [token.alone, token.endAlone] ∧ again.reports.toList = [] := by
  have hfits := fitsWords_of_length_le hlength
  obtain ⟨result, hresult, htokens, -⟩ := exists_scan_eq_ok hfits
  refine ⟨result, hresult, ?_, ?_⟩
  · intro token hmem
    rw [htokens] at hmem
    obtain ⟨form, hform⟩ := exists_hasForm_of_mem_tokensOf hmem
    refine ⟨form, hform, ?_⟩
    intro other hother
    rw [hother.eq_ofKind, hform.eq_ofKind]
  · intro token hmem hkind
    rw [htokens] at hmem
    rcases mem_tokensOf_iff.mp hmem with ⟨placed, hplaced, htoken⟩ | rfl
    · obtain ⟨hvalid, rest, hsource, -⟩ := exists_of_mem_placedOf hplaced
      have hlexeme : FitsWords token.lexeme.toList := by
        rw [(Placed.token?_eq_some_iff.mp htoken).2.1, String.toList_ofList]
        rw [hsource, List.append_assoc] at hfits
        exact hfits.of_append_right.mono (List.prefix_append _ _)
      obtain ⟨again, hagain, hagainTokens, hagainDiagnostics⟩ := exists_scan_eq_ok hlexeme
      refine ⟨again, hagain, ?_, ?_⟩
      · rw [hagainTokens, tokensOf_lexeme hvalid htoken]
      · rw [hagainDiagnostics, diagnosticsOf_lexeme hvalid htoken]
    · exact absurd rfl hkind

/-- A string over two lines, a number before a point and a mark before an equals
sign. -/
theorem scan_coherent_of_neighbors :
    "\"a\nb\" 3.<=or".length ≤ 4294967294 ∧
      ∃ result, scan "\"a\nb\" 3.<=or" = .ok result ∧
        (∀ token ∈ result.tokens, ∃! form, token.HasForm form) ∧
        ∀ token ∈ result.tokens, token.kind ≠ .endOfInput →
          ∃ again, scan token.lexeme = .ok again ∧
            again.tokens = [token.alone, token.endAlone] ∧ again.reports.toList = [] :=
  ⟨by decide, scan_coherent (by decide)⟩

end LoxLexer

import LoxLexer.Proofs.Diagnostic.Message
import LoxLexer.Proofs.Grammar.Basic
import LoxLexer.Proofs.Scan.Run

/-!
# Longest match

A lexer is described by the grammar alone: at each place it takes the longest
beginning of the remaining text that is a piece of some class, and where no
beginning is one, the text is in error.  The description fixes no order in
which classes are tried and no way to look for a piece.

The scan of a source is what this lexer gives, and nothing else is.
-/

namespace LoxLexer
namespace Grammar

/-- A piece is the longest beginning of a text that belongs to any class. -/
structure IsLongest (text piece : List Char) (cls : Class) : Prop where
  nonempty : piece ≠ []
  begins : piece <+: text
  belongs : Belongs cls piece
  longest : ∀ other otherClass, other <+: text → Belongs otherClass other →
    other.length ≤ piece.length

/-- No beginning of a text belongs to a class. -/
def NoPiece (text : List Char) : Prop :=
  ∀ piece cls, piece ≠ [] → piece <+: text → ¬ Belongs cls piece

/-- The line on which the character after a text stands. -/
def lineAfter (before : List Char) : Word := Word.ofCount (1 + before.count '\n')

/-- The span of a piece after a text. -/
def spanAfter (before piece : List Char) : Span :=
  ⟨Word.ofCount before.length, Word.ofCount piece.length⟩

/-- `LexesTo before text tokens diagnostics`: with `before` already read, the
longest-match lexer turns the remaining text into these tokens and
diagnostics. -/
inductive LexesTo : List Char → List Char → List Token → List Diagnostic → Prop
  | done {before : List Char} :
      LexesTo before []
        [⟨.endOfInput, "", none, lineAfter before, ⟨Word.ofCount before.length, 0⟩⟩] []
  | token {before piece rest : List Char} {cls : Class} {kind : Kind}
      {literal : Option Literal} {tokens : List Token} {diagnostics : List Diagnostic} :
      IsLongest (piece ++ rest) piece cls →
      Denotes piece kind literal →
      LexesTo (before ++ piece) rest tokens diagnostics →
      LexesTo before (piece ++ rest)
        (⟨kind, String.ofList piece, literal, lineAfter before, spanAfter before piece⟩ ::
          tokens)
        diagnostics
  | layout {before piece rest : List Char} {cls : Class} {tokens : List Token}
      {diagnostics : List Diagnostic} :
      IsLongest (piece ++ rest) piece cls →
      cls = .comment ∨ cls = .blank →
      LexesTo (before ++ piece) rest tokens diagnostics →
      LexesTo before (piece ++ rest) tokens diagnostics
  | unterminated {before body : List Char} {tokens : List Token}
      {diagnostics : List Diagnostic} :
      NoPiece ('"' :: body) →
      LexesTo (before ++ '"' :: body) [] tokens diagnostics →
      LexesTo before ('"' :: body) tokens
        (⟨none, lineAfter before, some (spanAfter before ('"' :: body)),
          "Unterminated string.", 1002⟩ :: diagnostics)
  | unexpected {before rest : List Char} {c : Char} {tokens : List Token}
      {diagnostics : List Diagnostic} :
      NoPiece (c :: rest) →
      c ≠ '"' →
      LexesTo (before ++ [c]) rest tokens diagnostics →
      LexesTo before (c :: rest) tokens
        (⟨none, lineAfter before, some (spanAfter before [c]),
          "Unexpected character '" ++ String.singleton c ++ "'.", 1001⟩ :: diagnostics)

/-! ## The first lexeme is the longest -/

/-- A valid lexeme is found again in its own text. -/
theorem text_injective
    {first second : Lexeme}
    (hfirst : first.Valid)
    (hsecond : second.Valid)
    (htext : first.text = second.text) :
    first = second := by
  obtain ⟨c, others, hcons⟩ :=
    List.exists_cons_of_ne_nil (Lexeme.text_ne_nil_of_valid hfirst)
  have hone : Lexeme.first c others = (first, []) :=
    Lexeme.first_eq hfirst (Lexeme.stops_nil first) (by rw [List.append_nil, hcons])
  have htwo : Lexeme.first c others = (second, []) :=
    Lexeme.first_eq hsecond (Lexeme.stops_nil second) (by rw [List.append_nil, ← htext, hcons])
  rw [hone] at htwo
  exact congrArg Prod.fst htwo

/-- No valid lexeme goes beyond one that stops. -/
theorem eq_of_text_prefix
    {lexeme other : Lexeme} {rest : List Char}
    (hvalid : lexeme.Valid)
    (hstops : lexeme.Stops rest)
    (hother : other.Valid)
    (hbegins : other.text <+: lexeme.text ++ rest)
    (hlength : lexeme.text.length ≤ other.text.length) :
    other = lexeme := by
  have hinitial : lexeme.text <+: other.text :=
    List.prefix_of_prefix_length_le (List.prefix_append _ _) hbegins hlength
  obtain ⟨more, hmore⟩ := hinitial
  obtain ⟨after, hafter⟩ := hbegins
  rw [← hmore, List.append_assoc, List.append_cancel_left_eq] at hafter
  rw [← hafter] at hstops
  obtain ⟨c, others, hcons⟩ :=
    List.exists_cons_of_ne_nil (Lexeme.text_ne_nil_of_valid hother)
  have hone : Lexeme.first c others = (lexeme, more) :=
    Lexeme.first_eq hvalid (Lexeme.stops_of_append hstops) (by rw [hmore, hcons])
  have htwo : Lexeme.first c others = (other, []) :=
    Lexeme.first_eq hother (Lexeme.stops_nil other) (by rw [List.append_nil, hcons])
  rw [hone] at htwo
  exact (congrArg Prod.fst htwo).symm

/-- Where the first lexeme is in error, no beginning of the source belongs to a
class. -/
theorem noPiece_of_classOf?_eq_none
    {lexeme : Lexeme} {rest : List Char}
    (hvalid : lexeme.Valid)
    (hstops : lexeme.Stops rest)
    (hclass : classOf? lexeme = none) :
    NoPiece (lexeme.text ++ rest) := by
  intro piece cls hne hbegins hbelongs
  obtain ⟨other, hother, rfl, hotherClass⟩ := belongs_iff.mp hbelongs
  have hlength : 0 < other.text.length := List.length_pos_iff.mpr hne
  have heq : ∃ found : Lexeme, other = found ∧ classOf? found = none := by
    cases lexeme with
    | unterminated body =>
        obtain rfl : rest = [] := hstops
        rw [List.append_nil] at hbegins
        obtain ⟨after, hafter⟩ := hbegins
        obtain ⟨c, others, hcons⟩ := List.exists_cons_of_ne_nil hne
        rw [hcons, Lexeme.text, List.cons_append] at hafter
        obtain ⟨rfl, rfl⟩ := List.cons.inj hafter
        have hbody : (Lexeme.unterminated others).Valid :=
          fun hquote => hvalid (List.mem_append_left after hquote)
        exact ⟨.unterminated others, text_injective hother hbody hcons, rfl⟩
    | unexpected c =>
        exact ⟨.unexpected c, eq_of_text_prefix hvalid hstops hother hbegins hlength, rfl⟩
    | _ => cases hclass
  obtain ⟨found, rfl, hfound⟩ := heq
  rw [hfound] at hotherClass
  cases hotherClass

/-- Where the first lexeme has a class, it is the longest piece. -/
theorem isLongest_of_classOf?_eq_some
    {lexeme : Lexeme} {rest : List Char} {cls : Class}
    (hvalid : lexeme.Valid)
    (hstops : lexeme.Stops rest)
    (hclass : classOf? lexeme = some cls) :
    IsLongest (lexeme.text ++ rest) lexeme.text cls where
  nonempty := Lexeme.text_ne_nil_of_valid hvalid
  begins := List.prefix_append _ _
  belongs := belongs_iff.mpr ⟨lexeme, hvalid, rfl, hclass⟩
  longest := by
    intro piece otherClass hbegins hbelongs
    obtain ⟨other, hother, rfl, -⟩ := belongs_iff.mp hbelongs
    by_contra hlonger
    have heq := eq_of_text_prefix hvalid hstops hother hbegins (by omega)
    rw [heq] at hlonger
    exact hlonger (Nat.le_refl _)

/-! ## The longest piece is the first lexeme -/

theorem exists_lexeme_of_isLongest
    {piece rest : List Char} {cls : Class}
    (hlongest : IsLongest (piece ++ rest) piece cls) :
    ∃ lexeme : Lexeme, lexeme.Valid ∧ lexeme.Stops rest ∧ lexeme.text = piece ∧
      classOf? lexeme = some cls := by
  obtain ⟨other, hother, rfl, hclass⟩ := belongs_iff.mp hlongest.belongs
  obtain ⟨c, others, hcons⟩ := List.exists_cons_of_ne_nil
    (List.append_ne_nil_of_left_ne_nil hlongest.nonempty rest)
  have hvalid := Lexeme.first_valid c others
  have hstops := Lexeme.first_stops c others
  have hsource := Lexeme.text_append_rest c others
  have hlength : (Lexeme.first c others).1.text.length ≤ other.text.length := by
    cases hfirst : classOf? (Lexeme.first c others).1 with
    | none =>
        have hnone := noPiece_of_classOf?_eq_none hvalid hstops hfirst
        rw [hsource, ← hcons] at hnone
        exact absurd hlongest.belongs (hnone _ cls hlongest.nonempty hlongest.begins)
    | some firstClass =>
        have hfound := isLongest_of_classOf?_eq_some hvalid hstops hfirst
        apply hlongest.longest _ firstClass _ hfound.belongs
        rw [hcons, ← hsource]
        exact hfound.begins
  have hbegins : other.text <+: (Lexeme.first c others).1.text ++ (Lexeme.first c others).2 := by
    rw [hsource, ← hcons]
    exact hlongest.begins
  have heq := eq_of_text_prefix hvalid hstops hother hbegins hlength
  rw [← hcons, ← heq] at hsource
  have hrest := List.append_cancel_left hsource
  rw [hrest, ← heq] at hstops
  exact ⟨other, hother, hstops, rfl, hclass⟩

theorem exists_lexeme_of_noPiece
    {c : Char} {others : List Char}
    (hnone : NoPiece (c :: others)) :
    ∃ lexeme rest, lexeme.Valid ∧ lexeme.Stops rest ∧
      c :: others = lexeme.text ++ rest ∧ classOf? lexeme = none := by
  have hvalid := Lexeme.first_valid c others
  have hstops := Lexeme.first_stops c others
  have hsource := Lexeme.text_append_rest c others
  refine ⟨_, _, hvalid, hstops, hsource.symm, ?_⟩
  cases hfirst : classOf? (Lexeme.first c others).1 with
  | none => rfl
  | some firstClass =>
      have hfound := isLongest_of_classOf?_eq_some hvalid hstops hfirst
      rw [hsource] at hfound
      exact absurd hfound.belongs (hnone _ firstClass hfound.nonempty hfound.begins)

theorem valid_unterminated_of_noPiece
    {body : List Char}
    (hnone : NoPiece ('"' :: body)) :
    (Lexeme.unterminated body).Valid := by
  obtain ⟨lexeme, rest, hvalid, hstops, hsource, hclass⟩ := exists_lexeme_of_noPiece hnone
  cases lexeme with
  | unterminated found =>
      obtain rfl : rest = [] := hstops
      rw [List.append_nil] at hsource
      obtain rfl : body = found := (List.cons.inj hsource).2
      exact hvalid
  | unexpected d =>
      obtain ⟨rfl, -⟩ := List.cons.inj hsource
      exact absurd rfl hvalid.not_quote
  | _ => cases hclass

theorem valid_unexpected_of_noPiece
    {c : Char} {rest : List Char}
    (hnone : NoPiece (c :: rest))
    (hquote : c ≠ '"') :
    (Lexeme.unexpected c).Valid := by
  obtain ⟨lexeme, after, hvalid, -, hsource, hclass⟩ := exists_lexeme_of_noPiece hnone
  cases lexeme with
  | unterminated found => exact absurd (List.cons.inj hsource).1 hquote
  | unexpected d =>
      obtain rfl : c = d := (List.cons.inj hsource).1
      exact hvalid
  | _ => cases hclass

/-- What a lexeme that has a class means. -/
theorem meaning_cases
    {lexeme : Lexeme} {cls : Class}
    (hclass : classOf? lexeme = some cls) :
    (∃ kind literal, lexeme.meaning = .token kind literal) ∨
      lexeme.meaning = .nothing ∧ (cls = .comment ∨ cls = .blank) := by
  cases lexeme <;> cases hclass <;> simp [Lexeme.meaning]

theorem meaning_of_layout
    {lexeme : Lexeme} {cls : Class}
    (hclass : classOf? lexeme = some cls)
    (hlayout : cls = .comment ∨ cls = .blank) :
    lexeme.meaning = .nothing := by
  cases lexeme <;> cases hclass <;> simp [Lexeme.meaning] at hlayout ⊢

/-! ## The lexer gives the tokens of a source -/

theorem diagnostic?_unterminated
    (before body : List Char) :
    (Placed.mk before (.unterminated body)).diagnostic? =
      some ⟨none, lineAfter before, some (spanAfter before ('"' :: body)),
        "Unterminated string.", 1002⟩ := by
  simp only [Placed.diagnostic?, Lexeme.meaning]
  rw [Diagnostic.ofTemplate_unterminatedString]
  rfl

theorem diagnostic?_unexpected
    (before : List Char) (c : Char) :
    (Placed.mk before (.unexpected c)).diagnostic? =
      some ⟨none, lineAfter before, some (spanAfter before [c]),
        "Unexpected character '" ++ String.singleton c ++ "'.", 1001⟩ := by
  simp only [Placed.diagnostic?, Lexeme.meaning]
  rw [Diagnostic.ofTemplate_unexpectedCharacter]
  rfl

/-- The longest-match lexer gives the tokens and the diagnostics of a text. -/
theorem lexesTo_tokensFrom
    (before source : List Char) :
    LexesTo before source (tokensFrom before source) (diagnosticsFrom before source) := by
  -- along the cut of the source; the text already read changes with every lexeme
  induction source using Lexeme.cut.induct generalizing before with
  | case1 =>
      rw [tokensFrom_nil, diagnosticsFrom_nil]
      exact .done
  | case2 c others ih =>
      have hvalid := Lexeme.first_valid c others
      have hstops := Lexeme.first_stops c others
      rw [← Lexeme.text_append_rest c others, tokensFrom_append before hvalid hstops,
        diagnosticsFrom_append before hvalid hstops]
      generalize (Lexeme.first c others).1 = lexeme at *
      generalize (Lexeme.first c others).2 = rest at *
      have hlater := ih (before ++ lexeme.text)
      cases hclass : classOf? lexeme with
      | some cls =>
          have hlongest := isLongest_of_classOf?_eq_some hvalid hstops hclass
          rcases meaning_cases hclass with ⟨kind, literal, hmeaning⟩ | ⟨hmeaning, hlayout⟩
          · have hdenotes := denotes_iff.mpr ⟨lexeme, hvalid, rfl, hmeaning⟩
            simp only [Placed.token?, Placed.diagnostic?, hmeaning]
            exact .token hlongest hdenotes hlater
          · simp only [Placed.token?, Placed.diagnostic?, hmeaning]
            exact .layout hlongest hlayout hlater
      | none =>
          have hnone := noPiece_of_classOf?_eq_none hvalid hstops hclass
          cases lexeme with
          | unterminated body =>
              obtain rfl : rest = [] := hstops
              rw [List.append_nil] at hnone ⊢
              rw [diagnostic?_unterminated]
              exact .unterminated hnone hlater
          | unexpected d =>
              rw [diagnostic?_unexpected]
              exact .unexpected hnone hvalid.not_quote hlater
          | _ => cases hclass

/-- It gives nothing else. -/
theorem eq_tokensFrom_of_lexesTo
    {before source : List Char} {tokens : List Token} {diagnostics : List Diagnostic}
    (hlexes : LexesTo before source tokens diagnostics) :
    tokens = tokensFrom before source ∧ diagnostics = diagnosticsFrom before source := by
  -- every rule takes the text of a valid lexeme that stops, and so the first one
  induction hlexes with
  | @done before => exact ⟨(tokensFrom_nil before).symm, (diagnosticsFrom_nil before).symm⟩
  | @token before piece rest cls kind literal tokens diagnostics hlongest hdenotes _ ih =>
      obtain ⟨lexeme, hvalid, hstops, rfl, -⟩ := exists_lexeme_of_isLongest hlongest
      obtain ⟨other, hother, htext, hmeaning⟩ := denotes_iff.mp hdenotes
      obtain rfl := text_injective hother hvalid htext
      obtain ⟨rfl, rfl⟩ := ih
      rw [tokensFrom_append before hvalid hstops, diagnosticsFrom_append before hvalid hstops]
      simp only [Placed.token?, Placed.diagnostic?, hmeaning]
      exact ⟨rfl, rfl⟩
  | @layout before piece rest cls tokens diagnostics hlongest hlayout _ ih =>
      obtain ⟨lexeme, hvalid, hstops, rfl, hclass⟩ := exists_lexeme_of_isLongest hlongest
      have hmeaning := meaning_of_layout hclass hlayout
      obtain ⟨rfl, rfl⟩ := ih
      rw [tokensFrom_append before hvalid hstops, diagnosticsFrom_append before hvalid hstops]
      simp only [Placed.token?, Placed.diagnostic?, hmeaning]
      exact ⟨rfl, rfl⟩
  | @unterminated before body tokens diagnostics hnone _ ih =>
      obtain ⟨rfl, rfl⟩ := ih
      have hvalid := valid_unterminated_of_noPiece hnone
      have hstops := Lexeme.stops_nil (.unterminated body)
      have htokens := tokensFrom_append before hvalid hstops
      have hdiagnostics := diagnosticsFrom_append before hvalid hstops
      rw [List.append_nil] at htokens hdiagnostics
      rw [diagnostic?_unterminated] at hdiagnostics
      exact ⟨htokens.symm, hdiagnostics.symm⟩
  | @unexpected before rest c tokens diagnostics hnone hquote _ ih =>
      obtain ⟨rfl, rfl⟩ := ih
      have hvalid := valid_unexpected_of_noPiece hnone hquote
      have hstops : (Lexeme.unexpected c).Stops rest := trivial
      have hsource : c :: rest = (Lexeme.unexpected c).text ++ rest := rfl
      rw [hsource, tokensFrom_append before hvalid hstops,
        diagnosticsFrom_append before hvalid hstops, diagnostic?_unexpected]
      exact ⟨rfl, rfl⟩

/-- The scan of a source faults nowhere, and gives exactly what the
longest-match lexer gives. -/
theorem scan_eq_longestMatch
    {source : String}
    (hlength : source.length ≤ 4294967294) :
    ∃ result, scan source = .ok result ∧
      ∀ tokens diagnostics,
        LexesTo [] source.toList tokens diagnostics ↔
          tokens = result.tokens ∧ diagnostics = result.reports.toList := by
  obtain ⟨result, hresult, htokens, hdiagnostics⟩ :=
    exists_scan_eq_ok (fitsWords_of_length_le hlength)
  refine ⟨result, hresult, ?_⟩
  intro tokens diagnostics
  rw [htokens, hdiagnostics]
  constructor
  · exact eq_tokensFrom_of_lexesTo
  · rintro ⟨rfl, rfl⟩
    exact lexesTo_tokensFrom [] source.toList

/-- A number before a point, two equals signs, a comment and an open string. -/
theorem scan_eq_longestMatch_of_open_string :
    "3.===//\n@\"a".length ≤ 4294967294 ∧
      ∃ result, scan "3.===//\n@\"a" = .ok result ∧
        ∀ tokens diagnostics,
          LexesTo [] "3.===//\n@\"a".toList tokens diagnostics ↔
            tokens = result.tokens ∧ diagnostics = result.reports.toList :=
  ⟨by decide, scan_eq_longestMatch (by decide)⟩

end Grammar
end LoxLexer

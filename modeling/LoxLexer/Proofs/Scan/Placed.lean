import LoxLexer.Proofs.Lexeme.Cut
import LoxLexer.Diagnostic.Basic
import LoxLexer.Scan.Event
import Mathlib.Tactic.Tauto

/-!
# Lexemes in their places

A lexeme of a source is placed by the text before it: that text gives its
offset and its line.  What a lexeme contributes to a scan, a token or a
diagnostic, depends on its place and on nothing else that a scan remembers.
-/

namespace LoxLexer

/-- A text all of whose offsets and lines are words. -/
def FitsWords (text : List Char) : Prop := text.length + 1 < UInt32.size

theorem fitsWords_of_length_le
    {source : String}
    (hlength : source.length ≤ 4294967294) :
    FitsWords source.toList := by
  have hsize : UInt32.size = 4294967296 := rfl
  rw [FitsWords, String.length_toList]
  omega

namespace FitsWords

variable {text : List Char}

theorem mono
    {source : List Char}
    (hfits : FitsWords source)
    (hinitial : text <+: source) :
    FitsWords text := by
  have hle := hinitial.length_le
  rw [FitsWords] at hfits ⊢
  omega

theorem of_append_right
    {front : List Char}
    (hfits : FitsWords (front ++ text)) :
    FitsWords text := by
  rw [FitsWords, List.length_append] at hfits
  rw [FitsWords]
  omega

theorem of_infix
    {source : List Char}
    (hfits : FitsWords source)
    (hpart : text <:+: source) :
    FitsWords text := by
  obtain ⟨front, back, rfl⟩ := hpart
  exact (hfits.mono (List.prefix_append _ _)).of_append_right

theorem of_sublist
    {source : List Char}
    (hfits : FitsWords source)
    (htext : text.Sublist source) :
    FitsWords text := by
  have hle := htext.length_le
  rw [FitsWords] at hfits ⊢
  omega

theorem toNat_length
    (hfits : FitsWords text) :
    (Word.ofCount text.length).toNat = text.length := by
  rw [FitsWords] at hfits
  exact Word.toNat_ofCount (by omega)

theorem toNat_line
    (hfits : FitsWords text) :
    (Word.ofCount (1 + text.count '\n')).toNat = 1 + text.count '\n' := by
  have hcount : text.count '\n' ≤ text.length := List.count_le_length
  rw [FitsWords] at hfits
  exact Word.toNat_ofCount (by omega)

end FitsWords

/-- A lexeme with the text before it. -/
structure Placed where
  before : List Char
  lexeme : Lexeme

namespace Placed

def start (placed : Placed) : Nat := placed.before.length

def line (placed : Placed) : Nat := 1 + placed.before.count '\n'

def span (placed : Placed) : Span :=
  ⟨Word.ofCount placed.start, Word.ofCount placed.lexeme.length⟩

/-- The token that a placed lexeme makes, if it makes one. -/
def token? (placed : Placed) : Option Token :=
  match placed.lexeme.meaning with
  | .token kind literal =>
    some ⟨kind, String.ofList placed.lexeme.text, literal, Word.ofCount placed.line,
      placed.span⟩
  | .error _ _ | .nothing => none

/-- The diagnostic that a placed lexeme makes, if it is in error. -/
def diagnostic? (placed : Placed) : Option Diagnostic :=
  match placed.lexeme.meaning with
  | .error template arguments =>
    some ((Diagnostic.ofTemplate (Word.ofCount placed.line) template arguments).spanning
      placed.span)
  | .token _ _ | .nothing => none

/-- The event that tells of a placed lexeme. -/
def event? (placed : Placed) : Option Event :=
  match placed.lexeme.meaning with
  | .token kind _ =>
    some (.token kind (String.ofList placed.lexeme.text) (Word.ofCount placed.line))
  | .error template _ => some (.lexicalError (Word.ofCount placed.line) template.code)
  | .nothing => none

end Placed

/-- The lexemes of a row in their places, the row standing after a text. -/
def place (before : List Char) : List Lexeme → List Placed
  | [] => []
  | lexeme :: others => ⟨before, lexeme⟩ :: place (before ++ lexeme.text) others

/-- The lexemes of a source in their places. -/
def placedOf (source : List Char) : List Placed := place [] (Lexeme.cut source)

/-- The tokens of a source that stands after a text, the end of the input
last. -/
def tokensFrom (before source : List Char) : List Token :=
  (place before (Lexeme.cut source)).filterMap Placed.token? ++
    [Token.endOfInput (Word.ofCount (1 + (before ++ source).count '\n'))
      (Word.ofCount (before ++ source).length)]

/-- The diagnostics of a source that stands after a text. -/
def diagnosticsFrom (before source : List Char) : List Diagnostic :=
  (place before (Lexeme.cut source)).filterMap Placed.diagnostic?

def tokensOf (source : List Char) : List Token := tokensFrom [] source

def diagnosticsOf (source : List Char) : List Diagnostic := diagnosticsFrom [] source

/-! ## A source lexeme by lexeme -/

theorem tokensFrom_nil (before : List Char) :
    tokensFrom before [] =
      [Token.endOfInput (Word.ofCount (1 + before.count '\n'))
        (Word.ofCount before.length)] := by
  simp [tokensFrom, place]

theorem diagnosticsFrom_nil (before : List Char) : diagnosticsFrom before [] = [] := by
  simp [diagnosticsFrom, place]

theorem tokensFrom_append
    {lexeme : Lexeme} {rest : List Char}
    (before : List Char)
    (hvalid : lexeme.Valid)
    (hstops : lexeme.Stops rest) :
    tokensFrom before (lexeme.text ++ rest) =
      (Placed.mk before lexeme).token?.toList ++ tokensFrom (before ++ lexeme.text) rest := by
  rw [tokensFrom, tokensFrom, Lexeme.cut_append hvalid hstops, place, List.filterMap_cons,
    List.append_assoc before]
  cases (Placed.mk before lexeme).token? <;> rfl

theorem diagnosticsFrom_append
    {lexeme : Lexeme} {rest : List Char}
    (before : List Char)
    (hvalid : lexeme.Valid)
    (hstops : lexeme.Stops rest) :
    diagnosticsFrom before (lexeme.text ++ rest) =
      (Placed.mk before lexeme).diagnostic?.toList ++
        diagnosticsFrom (before ++ lexeme.text) rest := by
  rw [diagnosticsFrom, diagnosticsFrom, Lexeme.cut_append hvalid hstops, place,
    List.filterMap_cons]
  cases (Placed.mk before lexeme).diagnostic? <;> rfl

/-! ## Where the lexemes of a source stand -/

/-- A placed lexeme of a row stands after the ones before it. -/
theorem exists_of_mem_place
    {before : List Char} {lexemes : List Lexeme} {placed : Placed}
    (hmem : placed ∈ place before lexemes) :
    ∃ front back, lexemes = front ++ placed.lexeme :: back ∧
      placed.before = before ++ Lexeme.textOf front := by
  induction lexemes generalizing before with
  | nil => simp [place] at hmem
  | cons lexeme others ih =>
      rcases List.mem_cons.mp hmem with rfl | hothers
      · exact ⟨[], others, rfl, by simp⟩
      · obtain ⟨front, back, rfl, hbefore⟩ := ih hothers
        exact ⟨lexeme :: front, back, rfl, by simp [hbefore]⟩

/-- A placed lexeme of a source is valid, and the source is the text before it,
its own characters, and a text before which it stops. -/
theorem exists_of_mem_placedOf
    {source : List Char} {placed : Placed}
    (hmem : placed ∈ placedOf source) :
    placed.lexeme.Valid ∧
      ∃ rest, source = placed.before ++ placed.lexeme.text ++ rest ∧
        placed.lexeme.Stops rest := by
  obtain ⟨front, back, hcut, hbefore⟩ := exists_of_mem_place hmem
  have hseparated := Lexeme.separated_cut source
  have htext := Lexeme.textOf_cut source
  rw [hcut] at hseparated htext
  obtain ⟨hvalid, hstops, -⟩ := hseparated.of_append
  refine ⟨hvalid, Lexeme.textOf back, ?_, hstops⟩
  rw [← htext, hbefore]
  simp

theorem place_append
    (before : List Char) (first second : List Lexeme) :
    place before (first ++ second) =
      place before first ++ place (before ++ Lexeme.textOf first) second := by
  induction first generalizing before with
  | nil => simp [place]
  | cons lexeme others ih =>
      rw [List.cons_append, place, place, ih, Lexeme.textOf_cons, List.append_assoc,
        List.cons_append]

/-- Of two placed lexemes the later one stands after all of the earlier one. -/
theorem pairwise_place
    (before : List Char) (lexemes : List Lexeme) :
    (place before lexemes).Pairwise fun first second =>
      first.before ++ first.lexeme.text <+: second.before := by
  induction lexemes generalizing before with
  | nil => exact List.Pairwise.nil
  | cons lexeme others ih =>
      refine List.Pairwise.cons ?_ (ih _)
      intro second hsecond
      obtain ⟨front, -, -, hbefore⟩ := exists_of_mem_place hsecond
      rw [hbefore]
      exact List.prefix_append _ _

namespace Placed

/-! ## What a placed lexeme makes -/

theorem token?_eq_some_iff
    {placed : Placed} {token : Token} :
    placed.token? = some token ↔
      placed.lexeme.meaning = .token token.kind token.literal ∧
        token.lexeme = String.ofList placed.lexeme.text ∧
        token.line = Word.ofCount placed.line ∧ token.span = placed.span := by
  obtain ⟨kind, lexeme, literal, line, span⟩ := token
  unfold token?
  cases placed.lexeme.meaning with
  | token found value => simp; tauto
  | error template arguments => simp
  | nothing => simp

theorem diagnostic?_eq_some_iff
    {placed : Placed} {diagnostic : Diagnostic} :
    placed.diagnostic? = some diagnostic ↔
      ∃ template arguments, placed.lexeme.meaning = .error template arguments ∧
        diagnostic = (Diagnostic.ofTemplate (Word.ofCount placed.line) template
          arguments).spanning placed.span := by
  unfold diagnostic?
  cases placed.lexeme.meaning with
  | token found value => simp
  | error template arguments =>
      simp only [Option.some.injEq, Meaning.error.injEq]
      constructor
      · rintro rfl
        exact ⟨template, arguments, ⟨rfl, rfl⟩, rfl⟩
      · rintro ⟨_, _, ⟨rfl, rfl⟩, rfl⟩
        rfl
  | nothing => simp

/-- The numbers of a placed lexeme are those of its place. -/
theorem toNat_of_fitsWords
    {placed : Placed}
    (hfits : FitsWords (placed.before ++ placed.lexeme.text)) :
    placed.span.start.toNat = placed.before.length ∧
      placed.span.length.toNat = placed.lexeme.text.length ∧
      (Word.ofCount placed.line).toNat = 1 + placed.before.count '\n' := by
  have hbefore := hfits.mono (List.prefix_append _ _)
  have hlength : placed.lexeme.text.length < UInt32.size := by
    rw [FitsWords, List.length_append] at hfits
    omega
  exact ⟨hbefore.toNat_length, Word.toNat_ofCount hlength, hbefore.toNat_line⟩

/-! ## Standing in a source -/

/-- A placed lexeme stands in a source: it is valid, and stops before the text
that comes after it. -/
structure StandsIn (source : List Char) (placed : Placed) : Prop where
  valid : placed.lexeme.Valid
  stops : ∃ rest, source = placed.before ++ placed.lexeme.text ++ rest ∧
    placed.lexeme.Stops rest

namespace StandsIn

variable {source : List Char} {placed : Placed}

theorem fitsWords
    (hstands : placed.StandsIn source)
    (hfits : FitsWords source) :
    FitsWords (placed.before ++ placed.lexeme.text) := by
  obtain ⟨-, rest, rfl, -⟩ := hstands
  exact hfits.mono (List.prefix_append _ _)

theorem toNat_span_start
    (hstands : placed.StandsIn source)
    (hfits : FitsWords source) :
    placed.span.start.toNat = placed.before.length :=
  (toNat_of_fitsWords (hstands.fitsWords hfits)).1

theorem toNat_span_length
    (hstands : placed.StandsIn source)
    (hfits : FitsWords source) :
    placed.span.length.toNat = placed.lexeme.text.length :=
  (toNat_of_fitsWords (hstands.fitsWords hfits)).2.1

end StandsIn

theorem standsIn_of_mem_placedOf
    {source : List Char} {placed : Placed}
    (hmem : placed ∈ placedOf source) :
    placed.StandsIn source := by
  obtain ⟨hvalid, hstops⟩ := exists_of_mem_placedOf hmem
  exact ⟨hvalid, hstops⟩

theorem length_le_of_mem_placedOf
    {source : List Char} {placed : Placed}
    (hmem : placed ∈ placedOf source) :
    placed.before.length + placed.lexeme.text.length ≤ source.length := by
  obtain ⟨-, rest, hsource, -⟩ := exists_of_mem_placedOf hmem
  rw [hsource, List.length_append, List.length_append]
  omega

theorem toNat_of_mem_placedOf
    {source : List Char} {placed : Placed}
    (hfits : FitsWords source)
    (hmem : placed ∈ placedOf source) :
    placed.span.start.toNat = placed.before.length ∧
      placed.span.length.toNat = placed.lexeme.text.length ∧
      (Word.ofCount placed.line).toNat = 1 + placed.before.count '\n' :=
  toNat_of_fitsWords ((standsIn_of_mem_placedOf hmem).fitsWords hfits)

/-- Placed lexemes of a source start one after the other. -/
theorem pairwise_start_lt
    {source : List Char}
    (hfits : FitsWords source) :
    (placedOf source).Pairwise fun first second => first.span.start < second.span.start := by
  apply List.Pairwise.imp_of_mem _ (pairwise_place [] (Lexeme.cut source))
  intro first second hfirst hsecond hinitial
  have hle := hinitial.length_le
  have hpos := List.length_pos_iff.mpr
    (Lexeme.text_ne_nil_of_valid (exists_of_mem_placedOf hfirst).1)
  rw [UInt32.lt_iff_toNat_lt, (toNat_of_mem_placedOf hfits hfirst).1,
    (toNat_of_mem_placedOf hfits hsecond).1]
  rw [List.length_append] at hle
  omega

end Placed

/-! ## The tokens of a source -/

theorem mem_tokensOf_iff
    {source : List Char} {token : Token} :
    token ∈ tokensOf source ↔
      (∃ placed ∈ placedOf source, placed.token? = some token) ∨
        token = Token.endOfInput (Word.ofCount (1 + source.count '\n'))
          (Word.ofCount source.length) := by
  simp [tokensOf, tokensFrom, placedOf]

theorem mem_diagnosticsOf_iff
    {source : List Char} {diagnostic : Diagnostic} :
    diagnostic ∈ diagnosticsOf source ↔
      ∃ placed ∈ placedOf source, placed.diagnostic? = some diagnostic :=
  List.mem_filterMap

theorem span_of_mem_diagnosticsOf
    {source : List Char} {diagnostic : Diagnostic}
    (hmem : diagnostic ∈ diagnosticsOf source) :
    diagnostic.span ≠ none := by
  obtain ⟨placed, -, hplaced⟩ := mem_diagnosticsOf_iff.mp hmem
  obtain ⟨template, arguments, -, rfl⟩ := Placed.diagnostic?_eq_some_iff.mp hplaced
  exact Option.some_ne_none placed.span

theorem kind_ne_endOfInput
    {lexeme : Lexeme} {kind : Kind} {literal : Option Literal}
    (hmeaning : lexeme.meaning = .token kind literal) :
    kind ≠ .endOfInput := by
  cases lexeme with
  | word letters =>
      cases hmeaning
      unfold Kind.ofWord
      split <;> exact Kind.noConfusion
  | _ => cases hmeaning <;> exact Kind.noConfusion

/-- Without the end of the input the tokens are those of the placed lexemes. -/
theorem filter_not_isEnd_tokensOf (source : List Char) :
    (tokensOf source).filter (fun token => !token.isEnd) =
      (placedOf source).filterMap Placed.token? := by
  have hkeep : ∀ token ∈ (placedOf source).filterMap Placed.token?,
      (!token.isEnd) = true := by
    intro token htoken
    obtain ⟨placed, -, hplaced⟩ := List.mem_filterMap.mp htoken
    have hkind := kind_ne_endOfInput (Placed.token?_eq_some_iff.mp hplaced).1
    simpa [Token.isEnd] using hkind
  rw [tokensOf, tokensFrom, List.filter_append]
  rw [placedOf] at hkeep
  rw [List.filter_eq_self.mpr hkeep]
  simp [Token.isEnd, Token.endOfInput, placedOf]

/-! ## Their order -/

theorem tokensOf_pairwise_start_lt
    {source : List Char}
    (hfits : FitsWords source) :
    (tokensOf source).Pairwise fun first second => first.span.start < second.span.start := by
  rw [tokensOf, tokensFrom, List.pairwise_append]
  refine ⟨?_, List.pairwise_singleton _ _, ?_⟩
  · refine (Placed.pairwise_start_lt hfits).filterMap _ ?_
    intro first second hlt token htoken other hother
    rw [(Placed.token?_eq_some_iff.mp htoken).2.2.2,
      (Placed.token?_eq_some_iff.mp hother).2.2.2]
    exact hlt
  · -- a lexeme is not empty, so it starts before the end of the input
    intro token htoken last hlast
    obtain ⟨placed, hplaced, hmakes⟩ := List.mem_filterMap.mp htoken
    have hle := Placed.length_le_of_mem_placedOf hplaced
    have hpos := List.length_pos_iff.mpr
      (Lexeme.text_ne_nil_of_valid (exists_of_mem_placedOf hplaced).1)
    rw [List.mem_singleton.mp hlast, (Placed.token?_eq_some_iff.mp hmakes).2.2.2,
      UInt32.lt_iff_toNat_lt, (Placed.toNat_of_mem_placedOf hfits hplaced).1]
    simp only [Token.endOfInput, Span.empty, List.nil_append, hfits.toNat_length]
    omega

theorem diagnosticsOf_pairwise_start_lt
    {source : List Char}
    (hfits : FitsWords source) :
    (diagnosticsOf source).Pairwise fun first second =>
      ∀ before ∈ first.span, ∀ after ∈ second.span, before.start < after.start := by
  refine (Placed.pairwise_start_lt hfits).filterMap _ ?_
  intro first second hlt diagnostic hdiagnostic other hother before hbefore after hafter
  obtain ⟨template, arguments, -, rfl⟩ := Placed.diagnostic?_eq_some_iff.mp hdiagnostic
  obtain ⟨template, arguments, -, rfl⟩ := Placed.diagnostic?_eq_some_iff.mp hother
  obtain rfl := Option.some.inj hbefore
  obtain rfl := Option.some.inj hafter
  exact hlt

end LoxLexer

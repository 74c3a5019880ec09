import LoxLexer.Proofs.Scan.Placed
import Mathlib.Data.List.Forall2

/-!
# Texts that stand after others

A text that stands after another one makes the tokens and the diagnostics that
it makes by itself, moved: offsets go on by the characters of the text before
it, lines by its line feeds, and nothing else changes.
-/

namespace LoxLexer

/-- A span moved on by some characters. -/
structure Span.MovedBy (characters : Nat) (span moved : Span) : Prop where
  start : moved.start.toNat = span.start.toNat + characters
  length : moved.length = span.length

/-- A token moved on by some characters and lines. -/
structure Token.MovedBy (characters lines : Nat) (token moved : Token) : Prop where
  kind : moved.kind = token.kind
  lexeme : moved.lexeme = token.lexeme
  literal : moved.literal = token.literal
  line : moved.line.toNat = token.line.toNat + lines
  span : Span.MovedBy characters token.span moved.span

/-- A diagnostic moved on by some characters and lines. -/
structure Diagnostic.MovedBy (characters lines : Nat) (diagnostic moved : Diagnostic) :
    Prop where
  file : moved.file = diagnostic.file
  line : moved.line.toNat = diagnostic.line.toNat + lines
  span : Option.Rel (Span.MovedBy characters) diagnostic.span moved.span
  message : moved.message = diagnostic.message
  code : moved.code = diagnostic.code

/-! ## Placed lexemes -/

namespace Placed

/-- The same lexeme with a text put before all that is before it. -/
structure PutAfter (front : List Char) (placed moved : Placed) : Prop where
  lexeme : moved.lexeme = placed.lexeme
  before : moved.before = front ++ placed.before
  fits : FitsWords (moved.before ++ moved.lexeme.text)

variable {front : List Char} {placed moved : Placed}

theorem PutAfter.fits_placed
    (hput : PutAfter front placed moved) :
    FitsWords (placed.before ++ placed.lexeme.text) := by
  have hfits := hput.fits
  rw [hput.lexeme, hput.before, List.append_assoc] at hfits
  exact hfits.of_append_right

theorem PutAfter.span
    (hput : PutAfter front placed moved) :
    Span.MovedBy front.length placed.span moved.span where
  start := by
    rw [(toNat_of_fitsWords hput.fits).1, (toNat_of_fitsWords hput.fits_placed).1,
      hput.before, List.length_append, Nat.add_comm]
  length := by
    rw [Placed.span, Placed.span, hput.lexeme]

theorem PutAfter.line
    (hput : PutAfter front placed moved) :
    (Word.ofCount moved.line).toNat =
      (Word.ofCount placed.line).toNat + front.count '\n' := by
  rw [(toNat_of_fitsWords hput.fits).2.2, (toNat_of_fitsWords hput.fits_placed).2.2,
    hput.before, List.count_append]
  omega

theorem PutAfter.token?
    (hput : PutAfter front placed moved) :
    Option.Rel (Token.MovedBy front.length (front.count '\n')) placed.token?
      moved.token? := by
  unfold Placed.token?
  rw [hput.lexeme]
  cases placed.lexeme.meaning with
  | token kind literal => exact .some ⟨rfl, rfl, rfl, hput.line, hput.span⟩
  | error template arguments => exact .none
  | nothing => exact .none

theorem PutAfter.diagnostic?
    (hput : PutAfter front placed moved) :
    Option.Rel (Diagnostic.MovedBy front.length (front.count '\n')) placed.diagnostic?
      moved.diagnostic? := by
  unfold Placed.diagnostic?
  rw [hput.lexeme]
  cases placed.lexeme.meaning with
  | token kind literal => exact .none
  | error template arguments => exact .some ⟨rfl, hput.line, .some hput.span, rfl, rfl⟩
  | nothing => exact .none

end Placed

theorem forall₂_place
    {front before : List Char} {lexemes : List Lexeme}
    (hfits : FitsWords (front ++ before ++ Lexeme.textOf lexemes)) :
    List.Forall₂ (Placed.PutAfter front) (place before lexemes)
      (place (front ++ before) lexemes) := by
  induction lexemes generalizing before with
  | nil => exact .nil
  | cons lexeme others ih =>
      rw [Lexeme.textOf_cons, ← List.append_assoc] at hfits
      refine .cons ⟨rfl, rfl, hfits.mono (List.prefix_append _ _)⟩ ?_
      rw [List.append_assoc]
      apply ih
      rwa [← List.append_assoc front]

/-! ## Tokens and diagnostics -/

section

variable {front source : List Char}

theorem forall₂_place_cut
    (hfits : FitsWords (front ++ source)) :
    List.Forall₂ (Placed.PutAfter front) (place [] (Lexeme.cut source))
      (place front (Lexeme.cut source)) := by
  have hplaced : FitsWords (front ++ [] ++ Lexeme.textOf (Lexeme.cut source)) := by
    rwa [List.append_nil, Lexeme.textOf_cut]
  have hforall := forall₂_place hplaced
  rwa [List.append_nil] at hforall

theorem endOfInput_movedBy
    (hfits : FitsWords (front ++ source)) :
    Token.MovedBy front.length (front.count '\n')
      (Token.endOfInput (Word.ofCount (1 + source.count '\n')) (Word.ofCount source.length))
      (Token.endOfInput (Word.ofCount (1 + (front ++ source).count '\n'))
        (Word.ofCount (front ++ source).length)) := by
  have hsource := hfits.of_append_right
  refine ⟨rfl, rfl, rfl, ?_, ?_, rfl⟩
  · simp only [Token.endOfInput]
    rw [hfits.toNat_line, hsource.toNat_line, List.count_append]
    omega
  · simp only [Token.endOfInput, Span.empty]
    rw [hfits.toNat_length, hsource.toNat_length, List.length_append, Nat.add_comm]

/-- The tokens of a text that stands after another one are its own, moved. -/
theorem forall₂_tokensFrom
    (hfits : FitsWords (front ++ source)) :
    List.Forall₂ (Token.MovedBy front.length (front.count '\n')) (tokensOf source)
      (tokensFrom front source) := by
  have hplaced := List.rel_filterMap (fun _ _ hput => hput.token?) (forall₂_place_cut hfits)
  exact List.rel_append hplaced (.cons (endOfInput_movedBy hfits) .nil)

/-- The diagnostics of a text that stands after another one are its own, moved. -/
theorem forall₂_diagnosticsFrom
    (hfits : FitsWords (front ++ source)) :
    List.Forall₂ (Diagnostic.MovedBy front.length (front.count '\n')) (diagnosticsOf source)
      (diagnosticsFrom front source) :=
  List.rel_filterMap (fun _ _ hput => hput.diagnostic?) (forall₂_place_cut hfits)

end

end LoxLexer

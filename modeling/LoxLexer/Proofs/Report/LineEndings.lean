import LoxLexer.Proofs.Report.Pointing
import LoxLexer.Proofs.Scan.LineEndings

/-!
# Reports and line endings

A source without carriage returns and the same source with one before each line
feed are reported alike.  The line of an error has a return at its end in the
one source and none in the other; it is shown without it, and the carets end
where the line as shown does.
-/

namespace LoxLexer

/-! ## Spots with returns -/

theorem WholeLines.withReturns
    {front : List Char}
    (hfront : WholeLines front) :
    WholeLines (withReturns front) := by
  induction hfront with
  | nil => exact .nil
  | @cons line rest hline _ ih =>
      have hreturned : '\n' ∉ line ++ ['\r'] := by simpa using hline
      rw [withReturns_append, withReturns_of_not_mem hline, withReturns_cons_feed,
        ← List.singleton_append, ← List.append_assoc]
      exact .cons hreturned ih

namespace Spot

/-- The rest of a line up to its line feed, with the return before that. -/
def tailWithReturn (spot : Spot) : List Char :=
  match spot.after with
  | none => spot.tail
  | some _ => spot.tail ++ ['\r']

theorem not_mem_tailWithReturn (spot : Spot) : '\n' ∉ spot.head ++ spot.tailWithReturn := by
  have hline := spot.line_noFeed
  unfold tailWithReturn
  split
  · exact hline
  · rw [← List.append_assoc]
    simpa using hline

/-- The same spot of the source with returns. -/
def withReturns (spot : Spot) : Spot where
  front := LoxLexer.withReturns spot.front
  head := spot.head
  tail := spot.tailWithReturn
  after := spot.after.map LoxLexer.withReturns
  front_wholeLines := spot.front_wholeLines.withReturns
  line_noFeed := spot.not_mem_tailWithReturn

theorem source_withReturns (spot : Spot) :
    spot.withReturns.source = LoxLexer.withReturns spot.source := by
  have hline := withReturns_of_not_mem spot.line_noFeed
  rw [LoxLexer.withReturns_append] at hline
  simp only [source, withReturns, tailWithReturn, withReturns_append, hline]
  cases hafter : spot.after with
  | none => simp [lineEnding]
  | some after => simp [lineEnding]

theorem offset_withReturns (spot : Spot) :
    spot.withReturns.offset = (LoxLexer.withReturns (spot.front ++ spot.head)).length := by
  rw [withReturns_append, withReturns_of_not_mem spot.head_noFeed]
  rfl

theorem line_withReturns (spot : Spot) : spot.withReturns.line = spot.line := by
  simp only [line, withReturns, count_withReturns]

/-- A line is shown without the return put at its end. -/
theorem text_withReturns
    {spot : Spot}
    (hreturn : '\r' ∉ spot.source) :
    spot.withReturns.text = spot.text := by
  have hline : '\r' ∉ spot.head ++ spot.tail := by
    intro hmem
    apply hreturn
    rw [source]
    exact List.mem_append_right _ (List.mem_append_left _ hmem)
  have hlast : (spot.head ++ spot.tail).getLast? ≠ some '\r' :=
    fun heq => hline (List.mem_of_getLast? heq)
  obtain ⟨front, head, tail, after, hfront, hfeed⟩ := spot
  cases after with
  | none => rfl
  | some after =>
      have hput : (head ++ (tail ++ ['\r'])).getLast? = some '\r' := by
        rw [← List.append_assoc, List.getLast?_concat]
      have hdrop : (head ++ (tail ++ ['\r'])).dropLast = head ++ tail := by
        rw [← List.append_assoc, List.dropLast_concat]
      exact (if_pos hput).trans (hdrop.trans (if_neg hlast).symm)

theorem carets_withReturns
    {spot : Spot}
    (hreturn : '\r' ∉ spot.source)
    (lexeme : Lexeme) :
    lexeme.withReturns.carets spot.withReturns = lexeme.carets spot := by
  have htext := text_withReturns hreturn
  cases lexeme with
  | unterminated body =>
      simp only [Lexeme.withReturns, Lexeme.carets, htext]
      rfl
  | _ => rfl

theorem excerpt_withReturns
    {spot : Spot}
    (hreturn : '\r' ∉ spot.source)
    (carets : Nat) :
    spot.withReturns.excerpt carets = spot.excerpt carets := by
  rw [excerpt, excerpt, line_withReturns, text_withReturns hreturn]
  rfl

end Spot

/-! ## Reports with returns -/

theorem Diagnostic.SameError.header_eq
    {diagnostic other : Diagnostic}
    (hsame : diagnostic.SameError other)
    (palette : Palette) (file : Option String) :
    Report.header palette { other with file := file } =
      Report.header palette { diagnostic with file := file } := by
  simp only [Report.header, hsame.line, hsame.message, hsame.code]

/-- A diagnostic is reported on one page as another one is on another page, with
any file and in any palette. -/
def Diagnostic.ReportedAlike (page other : Page) (diagnostic same : Diagnostic) : Prop :=
  ∀ (palette : Palette) (file : Option String), ∃ text,
    Report.ofDiagnostic palette page { diagnostic with file := file } = .ok text ∧
      Report.ofDiagnostic palette other { same with file := file } = .ok text

namespace Placed.ReturnedIn

variable {source : List Char} {placed returned : Placed}

/-- The lexeme with returns stands at the spot with returns. -/
theorem standsAt_withReturns
    {spot : Spot}
    (hreturned : ReturnedIn source placed returned)
    (hstands : placed.StandsAt source spot) :
    returned.StandsAt (withReturns source) spot.withReturns where
  toStandsIn := hreturned.stands_returned
  source_eq := by
    rw [spot.source_withReturns, hstands.source_eq]
  offset_eq := by
    rw [spot.offset_withReturns, hstands.front_append_head_eq, hreturned.before]

/-- A lexeme in error is reported alike in both sources. -/
theorem reportedAlike
    {diagnostic same : Diagnostic}
    (hreturned : ReturnedIn source placed returned)
    (hfits : FitsWords (withReturns source))
    (hreturn : '\r' ∉ source)
    (hdiagnostic : placed.diagnostic? = some diagnostic)
    (hother : returned.diagnostic? = some same)
    (hsame : diagnostic.SameError same) :
    diagnostic.ReportedAlike (Page.ofChars source) (Page.ofChars (withReturns source)) same := by
  intro palette file
  obtain ⟨spot, hstands⟩ := hreturned.stands.exists_standsAt
  have hreport := hstands.ofDiagnostic_eq_of_error hdiagnostic hfits.of_withReturns palette file
  have hreports := (hreturned.standsAt_withReturns hstands).ofDiagnostic_eq_of_error hother
    hfits palette file
  rw [← hstands.source_eq] at hreturn
  rw [hreturned.lexeme, Spot.carets_withReturns hreturn, Spot.excerpt_withReturns hreturn,
    hsame.header_eq] at hreports
  exact ⟨_, hreport, hreports⟩

/-- The diagnostics that a lexeme makes in both sources are the same error, and
are reported alike unless the source has returns of its own. -/
theorem diagnostic?_reportedAlike
    (hreturned : ReturnedIn source placed returned)
    (hfits : FitsWords (withReturns source)) :
    Option.Rel
      (fun diagnostic same => diagnostic.SameError same ∧
        ('\r' ∉ source → diagnostic.ReportedAlike (Page.ofChars source)
          (Page.ofChars (withReturns source)) same))
      placed.diagnostic? returned.diagnostic? := by
  have hrel := hreturned.diagnostic?
  generalize hdiagnostic : placed.diagnostic? = first at hrel ⊢
  generalize hother : returned.diagnostic? = second at hrel ⊢
  cases hrel with
  | none => exact .none
  | some hsame =>
      exact .some ⟨hsame, fun hreturn =>
        hreturned.reportedAlike hfits hreturn hdiagnostic hother hsame⟩

end Placed.ReturnedIn

/-- With a carriage return before each line feed a source is scanned to the same
tokens, with returns in them, and to the same errors; and unless it has returns
of its own the errors are reported alike. -/
theorem scan_withReturns
    {source : String}
    (hlength : (sourceWithReturns source).length ≤ 4294967294) :
    ∃ result returned, scan source = .ok result ∧
      scan (sourceWithReturns source) = .ok returned ∧
      List.Forall₂ (Token.ReturnedIn source.toList) result.tokens returned.tokens ∧
      List.Forall₂
        (fun diagnostic same => diagnostic.SameError same ∧
          ('\r' ∉ source.toList → diagnostic.ReportedAlike (Page.ofSource source)
            (Page.ofSource (sourceWithReturns source)) same))
        result.reports.toList returned.reports.toList := by
  have htext : (sourceWithReturns source).toList = withReturns source.toList := by
    rw [sourceWithReturns, String.toList_ofList]
  have hreturns := fitsWords_of_length_le hlength
  have hfits : FitsWords (withReturns source.toList) := by rwa [htext] at hreturns
  obtain ⟨result, hresult, htokens, hdiagnostics⟩ := exists_scan_eq_ok hfits.of_withReturns
  obtain ⟨returned, hreturned, htokens', hdiagnostics'⟩ := exists_scan_eq_ok hreturns
  refine ⟨result, returned, hresult, hreturned, ?_, ?_⟩
  · rw [htokens, htokens', htext]
    exact forall₂_tokensOf_withReturns hfits
  · rw [hdiagnostics, hdiagnostics', htext, diagnosticsOf_eq_telling, diagnosticsOf_eq_telling,
      Page.ofSource, Page.ofSource, htext]
    exact List.rel_filterMap (fun _ _ hlexeme => hlexeme.diagnostic?_reportedAlike hfits)
      (forall₂_tellingFrom (List.nil_append source.toList).symm)

/-- A comment, a string over two lines, an unexpected character and a string left
open over the end of a line, without returns. -/
theorem scan_withReturns_of_comment :
    (sourceWithReturns "a // b\n\"c\nd\" @\n1 \"e\n").length ≤ 4294967294 ∧
      '\r' ∉ "a // b\n\"c\nd\" @\n1 \"e\n".toList ∧
      ∃ result returned, scan "a // b\n\"c\nd\" @\n1 \"e\n" = .ok result ∧
        scan (sourceWithReturns "a // b\n\"c\nd\" @\n1 \"e\n") = .ok returned ∧
        List.Forall₂ (Token.ReturnedIn "a // b\n\"c\nd\" @\n1 \"e\n".toList) result.tokens
          returned.tokens ∧
        List.Forall₂
          (fun diagnostic same => diagnostic.SameError same ∧
            diagnostic.ReportedAlike (Page.ofSource "a // b\n\"c\nd\" @\n1 \"e\n")
              (Page.ofSource (sourceWithReturns "a // b\n\"c\nd\" @\n1 \"e\n")) same)
          result.reports.toList returned.reports.toList := by
  have hlength : (sourceWithReturns "a // b\n\"c\nd\" @\n1 \"e\n").length ≤ 4294967294 := by
    decide
  have hreturn : '\r' ∉ "a // b\n\"c\nd\" @\n1 \"e\n".toList := by decide
  obtain ⟨result, returned, hresult, hreturned, htokens, hdiagnostics⟩ :=
    scan_withReturns hlength
  refine ⟨hlength, hreturn, result, returned, hresult, hreturned, htokens, ?_⟩
  exact hdiagnostics.imp fun _ _ hsame => ⟨hsame.1, hsame.2 hreturn⟩

end LoxLexer

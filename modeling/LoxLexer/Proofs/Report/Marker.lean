import LoxLexer.Proofs.Report.Basic
import LoxLexer.Proofs.Report.LineLookup

/-!
# Markers

A span can be any two words: it can start beyond the end of the source or at a line
feed, and be empty or longer than its line.  The line of carets that a report puts
under the line of the span is bounded all the same.  Its carets stand under
characters of the line, from the column of the span on; a span that starts where
the line has no character left has a single caret, directly after the line
(`Excerpt.MarksWithin`).

A report faults only if its span has no place in the source
(`keepsWithin_ofSource`).
-/

namespace LoxLexer

namespace Excerpt

/-! ## The line of carets -/

/-- The number of carets for a span of some length, when some characters of the line
stand before it. -/
def caretCount (text : List Char) (before length : Nat) : Nat :=
  max 1 (min length (text.length - before))

/-- What stands before the carets: a blank for each character of the gutter, and a
blank for each character of the text before the marked part, though a tab for a
tab. -/
def markerPad (gutter text : List Char) (before : Nat) : List Char :=
  List.replicate gutter.length ' ' ++
    (text.take (min before text.length)).map fun c => if c = '\t' then '\t' else ' '

/-- The line under a line of text that stands after a gutter. -/
def markerLine (gutter text : List Char) (before length : Nat) : List Char :=
  markerPad gutter text before ++ List.replicate (caretCount text before length) '^'

/-- The carets of a marker line stand under the text, from the first marked character
on, or else there is one, directly after the text. -/
structure MarksWithin (gutter text : List Char) (before : Nat) (marker : List Char) : Prop where
  inside : before < text.length → ∀ i, marker[i]? = some '^' →
    gutter.length + before ≤ i ∧ i < gutter.length + text.length
  after : text.length ≤ before → ∀ i, marker[i]? = some '^' ↔
    i = gutter.length + text.length
  width : marker.length ≤ gutter.length + text.length + 1

section

variable {gutter text : List Char} {before length : Nat}

theorem length_markerPad (gutter text : List Char) (before : Nat) :
    (markerPad gutter text before).length = gutter.length + min before text.length := by
  simp only [markerPad, List.length_append, List.length_replicate, List.length_map,
    List.length_take, Nat.min_assoc, Nat.min_self]

theorem caret_not_mem_markerPad (gutter text : List Char) (before : Nat) :
    '^' ∉ markerPad gutter text before := by
  rw [markerPad, List.mem_append, not_or]
  constructor
  · intro hmem
    exact absurd (List.eq_of_mem_replicate hmem) (by decide)
  · intro hmem
    rcases eq_of_mem_indent hmem with htab | hblank
    · exact absurd htab (by decide)
    · exact absurd hblank (by decide)

/-- The carets stand after the pad and nowhere else. -/
theorem getElem?_markerLine_eq_caret_iff (i : Nat) :
    (markerLine gutter text before length)[i]? = some '^' ↔
      gutter.length + min before text.length ≤ i ∧
        i < gutter.length + min before text.length + caretCount text before length := by
  have hpad := length_markerPad gutter text before
  by_cases hbefore : i < gutter.length + min before text.length
  · rw [markerLine, List.getElem?_append_left (by rwa [hpad])]
    constructor
    · intro hcaret
      exact absurd (List.mem_of_getElem? hcaret) (caret_not_mem_markerPad gutter text before)
    · rintro ⟨hle, -⟩
      omega
  · rw [markerLine, List.getElem?_append_right (by rw [hpad]; omega), hpad,
      List.getElem?_replicate]
    split
    · simp only [true_iff]
      omega
    · simp only [reduceCtorEq, false_iff]
      omega

theorem before_add_caretCount_le
    (hbefore : before < text.length)
    (length : Nat) :
    before + caretCount text before length ≤ text.length := by
  rw [caretCount]
  omega

theorem caretCount_eq_one
    (hafter : text.length ≤ before) :
    caretCount text before length = 1 := by
  rw [caretCount]
  omega

theorem marksWithin_markerLine (gutter text : List Char) (before length : Nat) :
    MarksWithin gutter text before (markerLine gutter text before length) := by
  constructor
  · intro hbefore i hcaret
    rw [getElem?_markerLine_eq_caret_iff] at hcaret
    have hle := before_add_caretCount_le hbefore length
    omega
  · intro hafter i
    rw [getElem?_markerLine_eq_caret_iff, caretCount_eq_one hafter]
    omega
  · rw [markerLine, List.length_append, length_markerPad, List.length_replicate]
    rcases Nat.lt_or_ge before text.length with hbefore | hafter
    · have hle := before_add_caretCount_le hbefore length
      omega
    · rw [caretCount_eq_one hafter]
      omega

end

/-- Without color an excerpt is its line after the gutter, and the line of carets. -/
theorem write_plain
    {excerpt : Excerpt} {length : Nat}
    (hcarets : excerpt.carets = caretCount excerpt.text excerpt.before length) :
    excerpt.write .plain =
      String.ofList (excerpt.gutter.toList ++ excerpt.text) ++ "\n" ++
        String.ofList (markerLine excerpt.gutter.toList excerpt.text excerpt.before length) ++
          "\n" := by
  apply String.toList_injective
  simp [write, pad, markerLine, markerPad, Palette.plain, hcarets, ← List.take_eq_take_min,
    String.length_toList]

end Excerpt

/-! ## Reports of any diagnostic -/

namespace Report

open Excerpt

/-- What stands before a line of a source: the number of the line, and a rule. -/
def gutterOf (place : Place) : List Char := (place.line.decimal ++ " | ").toList

/-- The report of a diagnostic in a source: it faults for one span only, it is the
text of the diagnostic if there is no span or no line for it, and otherwise it shows
that line with its carets within bounds. -/
structure KeepsWithin (source : List Char) (diagnostic : Diagnostic) : Prop where
  fault : ∀ fault, ofDiagnostic .plain (Page.ofChars source) diagnostic = .error fault ↔
    fault = .addOverflow ∧ ∃ span, diagnostic.span = some span ∧
      span.start.toNat = 4294967295 ∧ '\n' ∉ source
  header : diagnostic.span = none →
    ofDiagnostic .plain (Page.ofChars source) diagnostic = .ok (diagnostic.text ++ "\n")
  excerpt : ∀ span, diagnostic.span = some span →
    ¬ (span.start.toNat = 4294967295 ∧ '\n' ∉ source) →
    ∃ place, (LineIndex.ofChars source).placeOf span.start = .ok place ∧
      ((Page.ofChars source).lineAt? span.start = none →
        ofDiagnostic .plain (Page.ofChars source) diagnostic = .ok (diagnostic.text ++ "\n")) ∧
      ∀ line, (Page.ofChars source).lineAt? span.start = some line →
        ofDiagnostic .plain (Page.ofChars source) diagnostic =
          .ok (diagnostic.text ++ "\n" ++
            (String.ofList (gutterOf place ++ line) ++ "\n" ++
              String.ofList (markerLine (gutterOf place) line (place.column.toNat - 1)
                span.length.toNat) ++ "\n")) ∧
        MarksWithin (gutterOf place) line (place.column.toNat - 1)
          (markerLine (gutterOf place) line (place.column.toNat - 1) span.length.toNat)

section

variable {source : List Char} {diagnostic : Diagnostic} {span : Span} {place : Place}

/-- What is shown of a source for a diagnostic with a span is the line of the span's
start, if the page has it. -/
theorem shown_eq
    (hfits : FitsWords source)
    (hspan : diagnostic.span = some span)
    (hplace : (LineIndex.ofChars source).placeOf span.start = .ok place) :
    shown (Page.ofChars source) diagnostic =
      .ok (((Page.ofChars source).lineAt? span.start).map fun line =>
        ⟨place.line, line, place.column.toNat - 1,
          caretCount line (place.column.toNat - 1) span.length.toNat⟩) := by
  rw [shown, hspan]
  exact ofSpan?_eq hfits hplace

/-- It faults as the look-up of that place does. -/
theorem shown_eq_error_iff
    {fault : Fault}
    (hspan : diagnostic.span = some span) :
    shown (Page.ofChars source) diagnostic = .error fault ↔
      (LineIndex.ofChars source).placeOf span.start = .error fault := by
  rw [shown, hspan]
  simp only [ofSpan?, Page.ofChars]
  cases (LineIndex.ofChars source).placeOf span.start with
  | error other => simp [Except.map]
  | ok place => simp [Except.map]

theorem ofDiagnostic_of_nothing_plain
    (hshown : shown (Page.ofChars source) diagnostic = .ok none) :
    ofDiagnostic .plain (Page.ofChars source) diagnostic = .ok (diagnostic.text ++ "\n") := by
  rw [ofDiagnostic_of_nothing hshown, header_plain]

theorem ofDiagnostic_of_line
    {line : List Char}
    (hfits : FitsWords source)
    (hspan : diagnostic.span = some span)
    (hplace : (LineIndex.ofChars source).placeOf span.start = .ok place)
    (hline : (Page.ofChars source).lineAt? span.start = some line) :
    ofDiagnostic .plain (Page.ofChars source) diagnostic =
      .ok (diagnostic.text ++ "\n" ++
        (String.ofList (gutterOf place ++ line) ++ "\n" ++
          String.ofList (markerLine (gutterOf place) line (place.column.toNat - 1)
            span.length.toNat) ++ "\n")) := by
  have hshown := shown_eq hfits hspan hplace
  rw [hline, Option.map_some] at hshown
  rw [ofDiagnostic_of_excerpt hshown, header_plain, write_plain rfl]
  rfl

end

/-- The report of any diagnostic in any source keeps within its line. -/
theorem keepsWithin_ofSource
    {source : String}
    (hlength : source.length ≤ 4294967294)
    (diagnostic : Diagnostic) :
    KeepsWithin source.toList diagnostic := by
  have hfits := fitsWords_of_length_le hlength
  constructor
  · intro fault
    rw [ofDiagnostic_eq_error_iff]
    cases hspan : diagnostic.span with
    | none => simp [shown, hspan]
    | some span =>
        obtain ⟨spot, hseen⟩ := exists_seenAt source.toList span.start
        rw [shown_eq_error_iff hspan, hseen.placeOf_eq_error_iff hfits]
        simp
  · intro hspan
    apply ofDiagnostic_of_nothing_plain
    rw [shown, hspan]
  · intro span hspan hplaced
    obtain ⟨spot, hseen⟩ := exists_seenAt source.toList span.start
    have hplace := hseen.placeOf_eq_ok hfits hplaced
    refine ⟨_, hplace, ?_, ?_⟩
    · intro hline
      apply ofDiagnostic_of_nothing_plain
      rw [shown_eq hfits hspan hplace, hline, Option.map_none]
    · intro line hline
      exact ⟨ofDiagnostic_of_line hfits hspan hplace hline, marksWithin_markerLine _ _ _ _⟩

/-- A span at the carriage return that its line does not show, as long as can be. -/
theorem keepsWithin_ofSource_of_return :
    "\ta\r\nb".length ≤ 4294967294 ∧
      KeepsWithin "\ta\r\nb".toList ⟨some "", 0, some ⟨2, 4294967295⟩, "^", 7⟩ :=
  ⟨by decide, keepsWithin_ofSource (by decide) _⟩

end Report
end LoxLexer

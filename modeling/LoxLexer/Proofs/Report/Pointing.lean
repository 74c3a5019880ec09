import LoxLexer.Proofs.Report.Basic
import LoxLexer.Proofs.Report.LineLookup
import LoxLexer.Proofs.Scan.Run

/-!
# Where a report points

The excerpt of a span is the line of the spot at which the span starts, with the
part of it before the spot kept as blanks, and with carets from the spot on
(`ofSpan?_eq_ok`).

For the diagnostics of a scan more is known of the spot.  It holds a character
that no line loses, so the excerpt is never missing and the first caret stands
under the character in error.  An unexpected character has one caret, a string
left open has carets to the end of its line.
-/

namespace LoxLexer

/-! ## The excerpt of a spot -/

namespace Spot

/-- The line of a spot with carets from the spot on. -/
def excerpt (spot : Spot) (carets : Nat) : Excerpt :=
  ⟨Word.ofCount spot.line, spot.text, spot.head.length, carets⟩

end Spot

namespace Excerpt

/-- The excerpt of a span is the line of the spot where it starts. -/
theorem ofSpan?_eq_ok
    {spot : Spot} {span : Span}
    (hfits : FitsWords spot.source)
    (hstart : span.start.toNat = spot.offset)
    (hheld : spot.after = none → spot.head ++ spot.tail ≠ []) :
    ofSpan? (Page.ofChars spot.source) span =
      .ok (some (spot.excerpt
        (max 1 (min span.length.toNat (spot.text.length - spot.head.length))))) := by
  have hseen : SeenAt spot.source span.start spot := ⟨rfl, by rw [hstart, spot.take_source]⟩
  have hdistance : span.start.toNat - spot.front.length = spot.head.length := by
    rw [hstart, Spot.offset, List.length_append, Nat.add_sub_cancel_left]
  have hcolumn : spot.head.length + 1 < UInt32.size := by
    rw [FitsWords, Spot.source, List.length_append, List.length_append,
      List.length_append] at hfits
    omega
  have hplace : (LineIndex.ofChars spot.source).placeOf span.start =
      .ok ⟨Word.ofCount spot.line, Word.ofCount (spot.head.length + 1)⟩ := by
    rw [← hdistance] at hcolumn ⊢
    exact LineIndex.placeOf_eq_ok hfits hseen.take_eq spot.front_wholeLines spot.head_noFeed
      hcolumn
  have hbefore : (Word.ofCount (spot.head.length + 1)).toNat - 1 = spot.head.length := by
    rw [Word.toNat_ofCount hcolumn, Nat.add_sub_cancel]
  rw [ofSpan?_eq hfits hplace, hseen.lineAt?_eq_some hfits hheld]
  simp only [Option.map_some, hbefore]
  rfl

end Excerpt

/-! ## Lexemes in error -/

/-- A lexeme in error begins with a character that ends no line. -/
theorem Lexeme.exists_text_eq_cons_of_error
    {lexeme : Lexeme} {template : Template} {arguments : List String}
    (hvalid : lexeme.Valid)
    (hmeaning : lexeme.meaning = .error template arguments) :
    ∃ c others, lexeme.text = c :: others ∧ c ≠ '\n' ∧ c ≠ '\r' := by
  cases lexeme with
  | unterminated body => exact ⟨'"', body, rfl, by decide, by decide⟩
  | unexpected c =>
      have hnothing : BeginsNothing c := hvalid
      refine ⟨c, [], rfl, hnothing.not_feed, ?_⟩
      rintro rfl
      exact absurd hnothing.not_blank (by decide)
  | _ => cases hmeaning

/-- The number of carets under a lexeme at a spot; only those in error have
any. -/
def Lexeme.carets (spot : Spot) : Lexeme → Nat
  | .unexpected _ => 1
  | .unterminated _ => spot.text.length - spot.head.length
  | _ => 0

/-- A placed lexeme stands in a source at a spot of it. -/
structure Placed.StandsAt (source : List Char) (spot : Spot) (placed : Placed) : Prop
    extends placed.StandsIn source where
  source_eq : spot.source = source
  offset_eq : spot.offset = placed.before.length

section

variable {source : List Char} {placed : Placed} {spot : Spot} {template : Template}
  {arguments : List String}

/-- Every placed lexeme of a source stands at a spot. -/
theorem Placed.StandsIn.exists_standsAt
    (hstands : placed.StandsIn source) :
    ∃ spot, placed.StandsAt source spot := by
  obtain ⟨rest, hrest, -⟩ := hstands.stops
  obtain ⟨spot, hsource, hoffset⟩ := exists_spot placed.before (placed.lexeme.text ++ rest)
  rw [← List.append_assoc, ← hrest] at hsource
  exact ⟨spot, hstands, hsource, hoffset⟩

namespace Placed.StandsAt

theorem front_append_head_eq
    (hstands : placed.StandsAt source spot) :
    spot.front ++ spot.head = placed.before := by
  obtain ⟨rest, hrest, -⟩ := hstands.stops
  rw [← spot.take_source, hstands.source_eq, hstands.offset_eq, hrest, List.append_assoc,
    List.take_left]

/-- The line of the spot counts the line feeds before the lexeme. -/
theorem line_eq
    (hstands : placed.StandsAt source spot) :
    spot.line = placed.line := by
  rw [Placed.line, ← hstands.front_append_head_eq, List.count_append,
    List.count_eq_zero.mpr spot.head_noFeed, Nat.add_zero, Spot.line]

/-- The line of a spot at a lexeme in error, as far as its first character. -/
theorem exists_text_eq_of_error
    (hstands : placed.StandsAt source spot)
    (hmeaning : placed.lexeme.meaning = .error template arguments) :
    ∃ c others, spot.text = spot.head ++ c :: others ∧ source[spot.offset]? = some c ∧
      spot.tail ≠ [] ∧ others.length < source.length - spot.offset := by
  obtain ⟨⟨hvalid, rest, hrest, -⟩, hsource, hoffset⟩ := hstands
  obtain ⟨c, more, htext, hfeed, hreturn⟩ :=
    Lexeme.exists_text_eq_cons_of_error hvalid hmeaning
  have hdrop : spot.source.drop spot.offset = c :: (more ++ rest) := by
    rw [hsource, hrest, htext, hoffset, List.append_assoc, List.drop_left, List.cons_append]
  obtain ⟨tail, htail⟩ := spot.exists_tail_eq_cons hdrop hfeed
  obtain ⟨others, hothers, hlength⟩ := spot.exists_text_eq htail hreturn
  refine ⟨c, others, hothers, ?_, ?_, ?_⟩
  · rw [← hsource, ← List.head?_drop, hdrop, List.head?_cons]
  · rw [htail]
    exact List.cons_ne_nil _ _
  · rw [← hsource, ← List.length_drop, spot.drop_source, htail, List.length_append,
      List.length_cons]
    omega

/-- The carets under a lexeme in error are as many as its characters on the
line. -/
theorem carets_eq_min
    (hstands : placed.StandsAt source spot)
    (hmeaning : placed.lexeme.meaning = .error template arguments)
    (hfits : FitsWords source) :
    placed.lexeme.carets spot =
        min placed.span.length.toNat (spot.text.length - spot.head.length) ∧
      0 < placed.lexeme.carets spot := by
  obtain ⟨c, others, htext, -, -, hlength⟩ := hstands.exists_text_eq_of_error hmeaning
  have havailable : spot.text.length - spot.head.length = others.length + 1 := by
    rw [htext, List.length_append, List.length_cons, Nat.add_sub_cancel_left]
  have hspan := hstands.toNat_span_length hfits
  obtain ⟨⟨-, rest, hrest, hstops⟩, -, hoffset⟩ := hstands
  obtain ⟨before, lexeme⟩ := placed
  rw [hspan, havailable]
  cases lexeme with
  | unexpected d =>
      rw [Lexeme.carets, Lexeme.text, List.length_singleton]
      omega
  | unterminated body =>
      -- it runs to the end of the source, and so beyond the end of the line
      obtain rfl : rest = [] := hstops
      rw [hoffset, hrest, List.append_nil, List.length_append, Nat.add_sub_cancel_left]
        at hlength
      rw [Lexeme.carets, havailable]
      omega
  | _ => cases hmeaning

/-- The excerpt of a lexeme in error is the line of its spot. -/
theorem ofSpan?_eq_of_error
    (hstands : placed.StandsAt source spot)
    (hmeaning : placed.lexeme.meaning = .error template arguments)
    (hfits : FitsWords source) :
    Excerpt.ofSpan? (Page.ofChars source) placed.span =
      .ok (some (spot.excerpt (placed.lexeme.carets spot))) := by
  obtain ⟨c, others, -, -, htail, -⟩ := hstands.exists_text_eq_of_error hmeaning
  obtain ⟨hcarets, hpos⟩ := hstands.carets_eq_min hmeaning hfits
  have hstart : placed.span.start.toNat = spot.offset := by
    rw [hstands.toNat_span_start hfits, hstands.offset_eq]
  have hheld : spot.after = none → spot.head ++ spot.tail ≠ [] :=
    fun _ => List.append_ne_nil_of_right_ne_nil _ htail
  rw [← hstands.source_eq] at hfits ⊢
  rw [Excerpt.ofSpan?_eq_ok hfits hstart hheld, ← hcarets, Nat.max_eq_right hpos]

/-- The report of a diagnostic is its header and the excerpt of its spot, in any
colors and with any file. -/
theorem ofDiagnostic_eq_of_error
    {diagnostic : Diagnostic}
    (hstands : placed.StandsAt source spot)
    (hmakes : placed.diagnostic? = some diagnostic)
    (hfits : FitsWords source)
    (palette : Palette) (file : Option String) :
    Report.ofDiagnostic palette (Page.ofChars source) { diagnostic with file := file } =
      .ok (Report.header palette { diagnostic with file := file } ++ "\n" ++
        (spot.excerpt (placed.lexeme.carets spot)).write palette) := by
  obtain ⟨template, arguments, hmeaning, rfl⟩ := Placed.diagnostic?_eq_some_iff.mp hmakes
  apply Report.ofDiagnostic_of_excerpt
  exact hstands.ofSpan?_eq_of_error hmeaning hfits

end Placed.StandsAt

end

/-! ## Reports of a scan -/

/-- A diagnostic of a source, the spot that it points at, and the number of
characters from there on that it marks. -/
structure Diagnostic.PointsAt (source : List Char) (diagnostic : Diagnostic) (spot : Spot)
    (carets : Nat) : Prop where
  source_eq : spot.source = source
  line : diagnostic.line.toNat = spot.line
  within : spot.head.length < spot.text.length
  character : spot.text[spot.head.length]? = source[spot.offset]?
  span : ∃ span, diagnostic.span = some span ∧ span.start.toNat = spot.offset ∧
    carets = min span.length.toNat (spot.text.length - spot.head.length)
  width : (diagnostic.code = 1001 ∧ carets = 1) ∨
    (diagnostic.code = 1002 ∧ carets = spot.text.length - spot.head.length)

/-- A report without colors: the text of the diagnostic, the line of a spot after
its number, and carets below the line from the spot on. -/
def Diagnostic.plainReport (diagnostic : Diagnostic) (spot : Spot) (carets : Nat) : String :=
  (diagnostic.text ++ "\n") ++
    ((diagnostic.line.decimal ++ " | ") ++ String.ofList spot.text ++ "\n") ++
    (String.ofList (List.replicate (diagnostic.line.decimal ++ " | ").length ' ' ++
      (spot.text.take spot.head.length).map fun c => if c = '\t' then '\t' else ' ') ++
        String.ofList (List.replicate carets '^') ++ "\n")

/-- The excerpt without colors is the line and the carets. -/
theorem header_append_write_plain
    {diagnostic : Diagnostic} {spot : Spot}
    (hline : diagnostic.line = Word.ofCount spot.line)
    (carets : Nat) :
    Report.header .plain diagnostic ++ "\n" ++ (spot.excerpt carets).write .plain =
      diagnostic.plainReport spot carets := by
  rw [Report.header_plain]
  apply String.toList_injective
  simp [Diagnostic.plainReport, Excerpt.write, Excerpt.pad, Excerpt.gutter, Spot.excerpt,
    Palette.plain, hline]

theorem Placed.StandsAt.pointsAt_of_error
    {source : List Char} {placed : Placed} {diagnostic : Diagnostic} {spot : Spot}
    (hstands : placed.StandsAt source spot)
    (hmakes : placed.diagnostic? = some diagnostic)
    (hfits : FitsWords source) :
    diagnostic.PointsAt source spot (placed.lexeme.carets spot) := by
  obtain ⟨template, arguments, hmeaning, rfl⟩ := Placed.diagnostic?_eq_some_iff.mp hmakes
  obtain ⟨c, others, htext, hcharacter, -, -⟩ := hstands.exists_text_eq_of_error hmeaning
  refine ⟨hstands.source_eq, ?_, ?_, ?_, ⟨placed.span, rfl, ?_, ?_⟩, ?_⟩
  · simp only [Diagnostic.spanning, Diagnostic.ofTemplate]
    rw [(Placed.toNat_of_fitsWords (hstands.fitsWords hfits)).2.2, hstands.line_eq]
    rfl
  · rw [htext, List.length_append, List.length_cons]
    omega
  · rw [hcharacter, htext, List.getElem?_append_right (Nat.le_refl _), Nat.sub_self]
    rfl
  · rw [hstands.toNat_span_start hfits, hstands.offset_eq]
  · exact (hstands.carets_eq_min hmeaning hfits).1
  · obtain ⟨before, lexeme⟩ := placed
    cases lexeme with
    | unexpected d =>
        cases hmeaning
        exact Or.inl ⟨rfl, rfl⟩
    | unterminated body =>
        cases hmeaning
        exact Or.inr ⟨rfl, rfl⟩
    | _ => cases hmeaning

/-- Every diagnostic of a scan points at a character of its source, and its
report without colors shows the line of that character with carets from the
character on. -/
theorem scan_reports_point
    {source : String}
    (hlength : source.length ≤ 4294967294) :
    ∃ result, scan source = .ok result ∧
      ∀ diagnostic ∈ result.reports.toList, ∃ spot carets,
        diagnostic.PointsAt source.toList spot carets ∧
        ∀ file : Option String,
          Report.ofDiagnostic .plain (Page.ofSource source) { diagnostic with file := file } =
            .ok (Diagnostic.plainReport { diagnostic with file := file } spot carets) := by
  have hfits := fitsWords_of_length_le hlength
  obtain ⟨result, hresult, -, hdiagnostics⟩ := exists_scan_eq_ok hfits
  refine ⟨result, hresult, ?_⟩
  intro diagnostic hmem
  rw [hdiagnostics] at hmem
  obtain ⟨placed, hplaced, hmakes⟩ := mem_diagnosticsOf_iff.mp hmem
  obtain ⟨spot, hstands⟩ := (Placed.standsIn_of_mem_placedOf hplaced).exists_standsAt
  have hpoints := hstands.pointsAt_of_error hmakes hfits
  refine ⟨spot, placed.lexeme.carets spot, hpoints, ?_⟩
  intro file
  have hreport := hstands.ofDiagnostic_eq_of_error hmakes hfits .plain file
  have hline : ({ diagnostic with file := file } : Diagnostic).line =
      Word.ofCount spot.line := by
    rw [← hpoints.line, Word.ofCount, UInt32.ofNat_toNat]
  rw [Page.ofSource, hreport, header_append_write_plain hline]

/-- An error after a tab, before a carriage return and a line feed, and a string
left open over two lines. -/
theorem scan_reports_point_of_tab :
    "a\n\t@\r\n \"b\r\nc".length ≤ 4294967294 ∧
      ∃ result, scan "a\n\t@\r\n \"b\r\nc" = .ok result ∧
        ∀ diagnostic ∈ result.reports.toList, ∃ spot carets,
          diagnostic.PointsAt "a\n\t@\r\n \"b\r\nc".toList spot carets ∧
          ∀ file : Option String,
            Report.ofDiagnostic .plain (Page.ofSource "a\n\t@\r\n \"b\r\nc")
                { diagnostic with file := file } =
              .ok (Diagnostic.plainReport { diagnostic with file := file } spot carets) :=
  ⟨by decide, scan_reports_point (by decide)⟩

end LoxLexer

import LoxLexer.Proofs.Scan.Moved
import LoxLexer.Proofs.Scan.Run

/-!
# Seams

A seam is a place in a source over which no lexeme reaches.  What the source
makes is what the text before the seam makes by itself, and after it what the
text from the seam on makes, moved to where it stands.

There are two ways to find a seam.  A line feed after a text that leaves no
string open is one, whatever comes before or after it.  And in any source there
is one wherever a token or a diagnostic starts, and at the end.
-/

namespace LoxLexer

/-- No lexeme reaches over from one text into the next. -/
def Seam (front back : List Char) : Prop :=
  Lexeme.cut (front ++ back) = Lexeme.cut front ++ Lexeme.cut back

namespace Seam

variable {front back : List Char}

theorem placedOf_eq
    (hseam : Seam front back) :
    placedOf (front ++ back) = placedOf front ++ place front (Lexeme.cut back) := by
  rw [placedOf, hseam, place_append, List.nil_append, Lexeme.textOf_cut, placedOf]

theorem tokensOf_eq
    (hseam : Seam front back) :
    tokensOf (front ++ back) =
      (tokensOf front).filter (fun token => !token.isEnd) ++ tokensFrom front back := by
  have hplaced := hseam.placedOf_eq
  rw [placedOf] at hplaced
  rw [filter_not_isEnd_tokensOf, tokensOf, tokensFrom, tokensFrom, hplaced,
    List.filterMap_append, List.append_assoc, List.nil_append]

theorem diagnosticsOf_eq
    (hseam : Seam front back) :
    diagnosticsOf (front ++ back) = diagnosticsOf front ++ diagnosticsFrom front back := by
  have hplaced := hseam.placedOf_eq
  rw [placedOf] at hplaced
  rw [diagnosticsOf, diagnosticsFrom, hplaced, List.filterMap_append]
  rfl

end Seam

/-- A scan of two texts in one gives the tokens of the first without its end of
the input, then those of the second moved on; and the diagnostics likewise. -/
structure Scan.Joins (characters lines : Nat) (front back whole : Scan Log) : Prop where
  tokens : ∃ moved,
    List.Forall₂ (Token.MovedBy characters lines) back.tokens moved ∧
      whole.tokens = front.tokens.filter (fun token => !token.isEnd) ++ moved
  diagnostics : ∃ moved,
    List.Forall₂ (Diagnostic.MovedBy characters lines) back.reports.toList moved ∧
      whole.reports.toList = front.reports.toList ++ moved

/-- A scan whose tokens and diagnostics are those of a text and of one that
stands after it joins the scans of the two. -/
theorem exists_scan_joins
    {front back source : String} {before : List Char}
    (hfront : FitsWords front.toList)
    (hback : FitsWords (before ++ back.toList))
    (hsource : FitsWords source.toList)
    (htokens : tokensOf source.toList =
      (tokensOf front.toList).filter (fun token => !token.isEnd) ++
        tokensFrom before back.toList)
    (hdiagnostics : diagnosticsOf source.toList =
      diagnosticsOf front.toList ++ diagnosticsFrom before back.toList) :
    ∃ first second whole, scan front = .ok first ∧ scan back = .ok second ∧
      scan source = .ok whole ∧
      Scan.Joins before.length (before.count '\n') first second whole := by
  obtain ⟨first, hfirst, hfirstTokens, hfirstDiagnostics⟩ := exists_scan_eq_ok hfront
  obtain ⟨second, hsecond, hsecondTokens, hsecondDiagnostics⟩ :=
    exists_scan_eq_ok hback.of_append_right
  obtain ⟨whole, hwhole, hwholeTokens, hwholeDiagnostics⟩ := exists_scan_eq_ok hsource
  refine ⟨first, second, whole, hfirst, hsecond, hwhole, ?_, ?_⟩
  · rw [hfirstTokens, hsecondTokens, hwholeTokens]
    exact ⟨_, forall₂_tokensFrom hback, htokens⟩
  · rw [hfirstDiagnostics, hsecondDiagnostics, hwholeDiagnostics]
    exact ⟨_, forall₂_diagnosticsFrom hback, hdiagnostics⟩

/-! ## A line feed -/

namespace Lexeme

theorem stops_lineFeed
    {lexeme : Lexeme}
    (hclosed : ∀ body, lexeme ≠ .unterminated body)
    (back : List Char) :
    lexeme.Stops ('\n' :: back) :=
  stops_cons (by decide) (by decide) (by decide) (by decide) (fun _ _ => rfl) hclosed back

/-- Where a lexeme stops, a line feed further on does not make it go on. -/
theorem Stops.append_lineFeed
    {lexeme : Lexeme} {rest : List Char}
    (hstops : lexeme.Stops rest)
    (hclosed : ∀ body, lexeme ≠ .unterminated body)
    (back : List Char) :
    lexeme.Stops (rest ++ '\n' :: back) :=
  hstops.append_cons (by decide) (stops_lineFeed hclosed back) hclosed

theorem Separated.append_lineFeed
    {lexemes others : List Lexeme}
    (hseparated : Separated lexemes)
    (hclosed : ∀ body, .unterminated body ∉ lexemes)
    (hothers : Separated others) :
    Separated (lexemes ++ .lineFeed :: others) := by
  induction lexemes with
  | nil => exact ⟨trivial, trivial, hothers⟩
  | cons lexeme later ih =>
      obtain ⟨hvalid, hstops, hlater⟩ := hseparated
      have hlexeme : ∀ body, lexeme ≠ .unterminated body := by
        rintro body rfl
        exact hclosed body List.mem_cons_self
      rw [List.cons_append]
      refine ⟨hvalid, ?_, ih hlater fun body hmem => hclosed body (List.mem_cons_of_mem _ hmem)⟩
      rw [textOf_append]
      exact hstops.append_lineFeed hlexeme (textOf others)

theorem Separated.of_append_left
    {front back : List Lexeme}
    (hseparated : Separated (front ++ back)) :
    Separated front := by
  induction front with
  | nil => trivial
  | cons lexeme others ih =>
      rw [List.cons_append] at hseparated
      obtain ⟨hvalid, hstops, hothers⟩ := hseparated
      rw [textOf_append] at hstops
      exact ⟨hvalid, stops_of_append hstops, ih hothers⟩

end Lexeme

/-- A line feed stands after a seam if the text before it leaves no string
open. -/
theorem seam_lineFeed
    {front : List Char}
    (hclosed : ∀ body, .unterminated body ∉ Lexeme.cut front)
    (back : List Char) :
    Seam front ('\n' :: back) := by
  have hvalid : Lexeme.lineFeed.Valid := trivial
  have hfeed : Lexeme.cut ('\n' :: back) = .lineFeed :: Lexeme.cut back :=
    Lexeme.cut_append hvalid trivial
  rw [Seam, hfeed, Lexeme.cut_eq_iff]
  refine ⟨?_, (Lexeme.separated_cut front).append_lineFeed hclosed (Lexeme.separated_cut back)⟩
  rw [Lexeme.textOf_append, Lexeme.textOf_cons, Lexeme.textOf_cut, Lexeme.textOf_cut]
  rfl

theorem tokensFrom_lineFeed (before back : List Char) :
    tokensFrom before ('\n' :: back) = tokensFrom (before ++ ['\n']) back := by
  have hvalid : Lexeme.lineFeed.Valid := trivial
  exact tokensFrom_append before hvalid trivial

theorem diagnosticsFrom_lineFeed (before back : List Char) :
    diagnosticsFrom before ('\n' :: back) = diagnosticsFrom (before ++ ['\n']) back := by
  have hvalid : Lexeme.lineFeed.Valid := trivial
  exact diagnosticsFrom_append before hvalid trivial

theorem exists_mem_place
    {lexeme : Lexeme} {lexemes : List Lexeme}
    (before : List Char)
    (hmem : lexeme ∈ lexemes) :
    ∃ placed ∈ place before lexemes, placed.lexeme = lexeme := by
  induction lexemes generalizing before with
  | nil => cases hmem
  | cons first others ih =>
      rcases List.mem_cons.mp hmem with rfl | hmem
      · exact ⟨_, List.mem_cons_self, rfl⟩
      · obtain ⟨placed, hplaced, hlexeme⟩ := ih (before ++ first.text) hmem
        exact ⟨placed, List.mem_cons_of_mem _ hplaced, hlexeme⟩

/-- A string that is left open is reported. -/
theorem exists_mem_diagnosticsOf_of_unterminated
    {source body : List Char}
    (hmem : .unterminated body ∈ Lexeme.cut source) :
    ∃ diagnostic ∈ diagnosticsOf source, diagnostic.code = 1002 := by
  obtain ⟨⟨before, lexeme⟩, hplaced, hlexeme⟩ := exists_mem_place [] hmem
  obtain rfl : lexeme = .unterminated body := hlexeme
  exact ⟨_, mem_diagnosticsOf_iff.mpr ⟨_, hplaced, rfl⟩, rfl⟩

/-- Two sources with a line feed between them are scanned one after the other,
unless the first leaves a string open. -/
theorem scan_append_lineFeed
    {front back : String}
    (hlength : (front ++ "\n" ++ back).length ≤ 4294967294)
    (hclosed : ∀ result, scan front = .ok result →
      ∀ diagnostic ∈ result.reports.toList, diagnostic.code ≠ 1002) :
    ∃ first second whole, scan front = .ok first ∧ scan back = .ok second ∧
      scan (front ++ "\n" ++ back) = .ok whole ∧
      Scan.Joins (front.length + 1) (front.toList.count '\n' + 1) first second whole := by
  have hsource : (front ++ "\n" ++ back).toList = front.toList ++ '\n' :: back.toList := by
    simp
  have hfits := fitsWords_of_length_le hlength
  have hfront : FitsWords front.toList := by
    rw [hsource] at hfits
    exact hfits.mono (List.prefix_append _ _)
  have hback : FitsWords ((front.toList ++ ['\n']) ++ back.toList) := by
    rw [hsource] at hfits
    rwa [List.append_assoc]
  have hopen : ∀ body, .unterminated body ∉ Lexeme.cut front.toList := by
    intro body hmem
    obtain ⟨diagnostic, hdiagnostic, hcode⟩ := exists_mem_diagnosticsOf_of_unterminated hmem
    obtain ⟨result, hresult, -, hdiagnostics⟩ := exists_scan_eq_ok hfront
    rw [← hdiagnostics] at hdiagnostic
    exact hclosed result hresult diagnostic hdiagnostic hcode
  have hseam := seam_lineFeed hopen back.toList
  have htokens := hseam.tokensOf_eq
  have hdiagnostics := hseam.diagnosticsOf_eq
  rw [tokensFrom_lineFeed, ← hsource] at htokens
  rw [diagnosticsFrom_lineFeed, ← hsource] at hdiagnostics
  have hscans := exists_scan_joins hfront hback hfits htokens hdiagnostics
  rwa [List.length_append, List.count_append, String.length_toList] at hscans

/-- A number before a point, then a comment with a quote in it. -/
theorem scan_append_lineFeed_of_comment :
    ("3.//\"" ++ "\n" ++ "=\"b").length ≤ 4294967294 ∧
      (∀ result, scan "3.//\"" = .ok result →
        ∀ diagnostic ∈ result.reports.toList, diagnostic.code ≠ 1002) ∧
      ∃ first second whole, scan "3.//\"" = .ok first ∧ scan "=\"b" = .ok second ∧
        scan ("3.//\"" ++ "\n" ++ "=\"b") = .ok whole ∧
        Scan.Joins ("3.//\"".length + 1) ("3.//\"".toList.count '\n' + 1)
          first second whole := by
  have hfits : FitsWords "3.//\"".toList := fitsWords_of_length_le (by decide)
  have hclosed : ∀ result, scan "3.//\"" = .ok result →
      ∀ diagnostic ∈ result.reports.toList, diagnostic.code ≠ 1002 := by
    intro result hresult
    rw [(eq_of_scan_eq_ok hfits hresult).2]
    decide +kernel
  exact ⟨by decide, hclosed, scan_append_lineFeed (by decide) hclosed⟩

/-! ## The start of a token or of a diagnostic -/

/-- A token or a diagnostic of a scan starts at an offset. -/
def Scan.StartsAt (result : Scan Log) (offset : Nat) : Prop :=
  (∃ token ∈ result.tokens, token.span.start.toNat = offset) ∨
    ∃ diagnostic ∈ result.reports.toList, ∃ span ∈ diagnostic.span,
      span.start.toNat = offset

/-- A source has a seam at an offset. -/
def HasSeam (source : List Char) (offset : Nat) : Prop :=
  ∃ front back, source = front ++ back ∧ front.length = offset ∧ Seam front back

theorem hasSeam_length (source : List Char) : HasSeam source source.length := by
  refine ⟨source, [], (List.append_nil source).symm, rfl, ?_⟩
  rw [Seam, Lexeme.cut_nil, List.append_nil, List.append_nil]

/-- Every lexeme of a source starts at a seam. -/
theorem hasSeam_of_mem_placedOf
    {source : List Char} {placed : Placed}
    (hfits : FitsWords source)
    (hmem : placed ∈ placedOf source) :
    HasSeam source placed.span.start.toNat := by
  obtain ⟨front, back, hcut, hbefore⟩ := exists_of_mem_place hmem
  have hseparated := Lexeme.separated_cut source
  have htext := Lexeme.textOf_cut source
  rw [hcut] at hseparated
  rw [hcut, Lexeme.textOf_append] at htext
  refine ⟨Lexeme.textOf front, Lexeme.textOf (placed.lexeme :: back), htext.symm, ?_, ?_⟩
  · rw [(Placed.toNat_of_mem_placedOf hfits hmem).1, hbefore, List.nil_append]
  · rw [Seam, htext, hcut, Lexeme.cut_textOf hseparated.of_append_left,
      Lexeme.cut_textOf hseparated.of_append]

theorem hasSeam_of_mem_tokensOf
    {source : List Char} {token : Token}
    (hfits : FitsWords source)
    (hmem : token ∈ tokensOf source) :
    HasSeam source token.span.start.toNat := by
  rcases mem_tokensOf_iff.mp hmem with ⟨placed, hplaced, htoken⟩ | rfl
  · rw [(Placed.token?_eq_some_iff.mp htoken).2.2.2]
    exact hasSeam_of_mem_placedOf hfits hplaced
  · simp only [Token.endOfInput, Span.empty]
    rw [hfits.toNat_length]
    exact hasSeam_length source

theorem hasSeam_of_mem_diagnosticsOf
    {source : List Char} {diagnostic : Diagnostic}
    (hfits : FitsWords source)
    (hmem : diagnostic ∈ diagnosticsOf source) :
    ∀ span ∈ diagnostic.span, HasSeam source span.start.toNat := by
  obtain ⟨placed, hplaced, hmakes⟩ := mem_diagnosticsOf_iff.mp hmem
  obtain ⟨template, arguments, -, rfl⟩ := Placed.diagnostic?_eq_some_iff.mp hmakes
  intro span hspan
  obtain rfl := Option.some.inj hspan
  exact hasSeam_of_mem_placedOf hfits hplaced

/-- A scan can be taken up again wherever a token or a diagnostic starts. -/
theorem scan_restart
    {source : String}
    (hlength : source.length ≤ 4294967294) :
    ∃ whole, scan source = .ok whole ∧ ∀ offset, whole.StartsAt offset →
      ∃ front back, scan (String.ofList (source.toList.take offset)) = .ok front ∧
        scan (String.ofList (source.toList.drop offset)) = .ok back ∧
        Scan.Joins offset ((source.toList.take offset).count '\n') front back whole := by
  have hfits := fitsWords_of_length_le hlength
  obtain ⟨whole, hwhole, htokens, hdiagnostics⟩ := exists_scan_eq_ok hfits
  refine ⟨whole, hwhole, ?_⟩
  intro offset hstarts
  have hseam : HasSeam source.toList offset := by
    rcases hstarts with ⟨token, htoken, rfl⟩ | ⟨diagnostic, hdiagnostic, span, hspan, rfl⟩
    · rw [htokens] at htoken
      exact hasSeam_of_mem_tokensOf hfits htoken
    · rw [hdiagnostics] at hdiagnostic
      exact hasSeam_of_mem_diagnosticsOf hfits hdiagnostic span hspan
  obtain ⟨front, back, hsource, rfl, hseam⟩ := hseam
  rw [hsource, List.take_left, List.drop_left]
  have hback : FitsWords (front ++ (String.ofList back).toList) := by
    rwa [String.toList_ofList, ← hsource]
  have hfront : FitsWords (String.ofList front).toList := by
    rw [String.toList_ofList]
    exact hback.mono (List.prefix_append _ _)
  obtain ⟨first, second, joined, hfirst, hsecond, hjoined, hjoins⟩ :=
    exists_scan_joins hfront hback hfits
      (by rw [String.toList_ofList, String.toList_ofList, hsource, hseam.tokensOf_eq])
      (by rw [String.toList_ofList, String.toList_ofList, hsource, hseam.diagnosticsOf_eq])
  obtain rfl : joined = whole := Except.ok.inj (hjoined.symm.trans hwhole)
  exact ⟨first, second, hfirst, hsecond, hjoins⟩

/-- The point after a number, with a line feed, a point and an error after it. -/
theorem scan_restart_of_point :
    "3.\n.4@".length ≤ 4294967294 ∧
      ∃ whole, scan "3.\n.4@" = .ok whole ∧ whole.StartsAt 1 ∧
        ∃ front back, scan (String.ofList ("3.\n.4@".toList.take 1)) = .ok front ∧
          scan (String.ofList ("3.\n.4@".toList.drop 1)) = .ok back ∧
          Scan.Joins 1 (("3.\n.4@".toList.take 1).count '\n') front back whole := by
  have hlength : "3.\n.4@".length ≤ 4294967294 := by decide
  obtain ⟨whole, hwhole, hrestart⟩ := scan_restart hlength
  have hstarts : whole.StartsAt 1 := by
    refine Or.inl ?_
    rw [(eq_of_scan_eq_ok (fitsWords_of_length_le hlength) hwhole).1]
    decide +kernel
  exact ⟨hlength, whole, hwhole, hstarts, hrestart 1 hstarts⟩

end LoxLexer

import LoxLexer.Proofs.Related
import LoxLexer.Proofs.Scan.LineEndings
import LoxLexer.Proofs.Scan.Seam
import LoxLexer.Proofs.Source.Spot
import LoxLexer.Proofs.Token.TextDump

/-!
# Sources line by line

A source none of whose lines leaves a string open is scanned to the tokens and
the diagnostics of its lines, each line scanned by itself: no lexeme reaches
over a line feed, and the feed means nothing.  Neither does the carriage return
before it, which a line has lost; where it was the end of a comment, the comment
is shorter and means as little as before.

Only places differ.  A lexeme of the source stands on the line with the number
of its own line, and by itself that line is the first.
-/

namespace LoxLexer

/-! ## Lines and their sources -/

namespace Lines

theorem withoutReturn_initial (line : List Char) : withoutReturn '\r' line <+: line := by
  unfold withoutReturn
  split
  · exact List.dropLast_prefix line
  · exact List.prefix_refl line

theorem infix_and_noFeed_of_mem_ofChars
    {source line : List Char}
    (hmem : line ∈ ofChars source) :
    line <:+: source ∧ '\n' ∉ line := by
  obtain ⟨front, head, rfl, hfront, hhead⟩ := exists_wholeLines_append source
  induction hfront with
  | nil =>
      rw [List.nil_append] at hmem ⊢
      by_cases hempty : head = []
      · rw [hempty, ofChars_nil] at hmem
        cases hmem
      · rw [ofChars_of_not_mem hempty hhead] at hmem
        rw [List.mem_singleton.mp hmem]
        exact ⟨List.infix_refl head, hhead⟩
  | @cons first rest hfirst _ ih =>
      rw [List.append_assoc, List.cons_append] at hmem ⊢
      rw [ofChars_append_feed hfirst] at hmem
      rcases List.mem_cons.mp hmem with rfl | hmem
      · have hinitial := withoutReturn_initial first
        refine ⟨(hinitial.trans (List.prefix_append _ _)).isInfix, ?_⟩
        intro hfeed
        exact hfirst (hinitial.subset hfeed)
      · obtain ⟨hpart, hline⟩ := ih hmem
        refine ⟨hpart.trans ?_, hline⟩
        exact ((List.suffix_cons _ _).trans (List.suffix_append _ _)).isInfix

end Lines

/-! ## Numbered lines -/

section

variable {α β γ : Type}

/-- What the items of a list have, each thing with the number of its item. -/
def numbered (f : α → List β) (number : Nat) (items : List α) : List (β × Nat) :=
  (items.zipIdx number).flatMap fun entry => (f entry.1).map fun made => (made, entry.2)

@[simp] theorem numbered_nil (f : α → List β) (number : Nat) : numbered f number [] = [] := rfl

theorem numbered_cons (f : α → List β) (number : Nat) (item : α) (others : List α) :
    numbered f number (item :: others) =
      (f item).map (fun made => (made, number)) ++ numbered f (number + 1) others := by
  rw [numbered, List.zipIdx_cons, List.flatMap_cons, numbered]

theorem map_fst_numbered (f : α → List β) (number : Nat) (items : List α) :
    (numbered f number items).map Prod.fst = items.flatMap f := by
  induction items generalizing number with
  | nil => rfl
  | cons item others ih =>
      rw [numbered_cons, List.map_append, ih, List.map_map, List.flatMap_cons]
      congr 1
      exact List.map_id _

theorem filterMap_numbered
    (f : α → List β) (g : β → Option γ) (number : Nat) (items : List α) :
    (numbered f number items).filterMap
        (fun entry => (g entry.1).map fun made => (made, entry.2)) =
      numbered (fun item => (f item).filterMap g) number items := by
  induction items generalizing number with
  | nil => rfl
  | cons item others ih =>
      rw [numbered_cons, numbered_cons, List.filterMap_append, ih, List.filterMap_map,
        List.map_filterMap]
      rfl

theorem numbered_eq_of_forall₂
    {R : α → β → Prop} {items : List α} {others : List β} {f : α → List γ} {g : β → List γ}
    (hitems : List.Forall₂ R items others)
    (heq : ∀ item other, R item other → g other = f item)
    (number : Nat) :
    numbered g number others = numbered f number items := by
  induction hitems generalizing number with
  | nil => rfl
  | cons hfirst _ ih => rw [numbered_cons, numbered_cons, ih, heq _ _ hfirst]

end

/-- A text ends with no string still open. -/
def LeavesNoneOpen (text : List Char) : Prop :=
  ∀ body, .unterminated body ∉ Lexeme.cut text

/-! ## A line and its ending -/

theorem exists_mem_tellingFrom_of_unterminated
    {source body : List Char}
    (before : List Char)
    (hmem : .unterminated body ∈ Lexeme.cut source) :
    ∃ placed ∈ tellingFrom before source, placed.lexeme = .unterminated body := by
  obtain ⟨placed, hplaced, hlexeme⟩ := exists_mem_place before hmem
  refine ⟨placed, List.mem_filter.mpr ⟨hplaced, ?_⟩, hlexeme⟩
  rw [hlexeme]
  rfl

/-- Texts that tell the same leave a string open together. -/
theorem leavesNoneOpen_of_tellingFrom_eq
    {source other : List Char}
    (hclosed : LeavesNoneOpen source)
    (heq : tellingFrom [] other = tellingFrom [] source) :
    LeavesNoneOpen other := by
  intro body hmem
  obtain ⟨placed, hplaced, hlexeme⟩ := exists_mem_tellingFrom_of_unterminated [] hmem
  rw [heq] at hplaced
  obtain ⟨front, back, hcut, -⟩ := exists_of_mem_place (List.mem_filter.mp hplaced).1
  apply hclosed body
  rw [hcut, hlexeme]
  exact List.mem_append_right _ List.mem_cons_self

theorem Seam.tellingFrom_eq
    {front back : List Char}
    (hseam : Seam front back)
    (before : List Char) :
    tellingFrom before (front ++ back) =
      tellingFrom before front ++ tellingFrom (before ++ front) back := by
  rw [tellingFrom, hseam, place_append, Lexeme.textOf_cut, List.filter_append, tellingFrom,
    tellingFrom]

/-- A carriage return at the end of a line tells nothing. -/
theorem tellingFrom_append_return
    {line : List Char}
    (before : List Char)
    (hline : '\n' ∉ line)
    (hclosed : LeavesNoneOpen line) :
    tellingFrom before (line ++ ['\r']) = tellingFrom before line := by
  induction line using Lexeme.cut.induct generalizing before with
  | case1 => rw [List.nil_append, tellingFrom_return, tellingFrom_nil, tellingFrom_nil]
  | case2 c others ih =>
      have hvalid := Lexeme.first_valid c others
      have hstops := Lexeme.first_stops c others
      have htext := Lexeme.text_append_rest c others
      rw [LeavesNoneOpen, Lexeme.cut_cons] at hclosed
      generalize (Lexeme.first c others).1 = lexeme at hvalid hstops htext ih hclosed
      generalize (Lexeme.first c others).2 = rest at hstops htext ih hclosed
      rw [← htext, List.mem_append, not_or] at hline
      have hrest := ih (before ++ lexeme.text) hline.2
        fun body hmem => hclosed body (List.mem_cons_of_mem _ hmem)
      have hopen : ∀ body, lexeme ≠ .unterminated body := by
        rintro body rfl
        exact hclosed body List.mem_cons_self
      rw [← htext, List.append_assoc, tellingFrom_append before hvalid hstops]
      by_cases hcomment : ∃ body, lexeme = .comment body
      · -- no line feed is left for a comment to stop at
        obtain ⟨body, rfl⟩ := hcomment
        have hnil : rest = [] := by
          by_contra hne
          obtain ⟨d, more, rfl⟩ := List.exists_cons_of_ne_nil hne
          have hfeed : Lexeme.isCommentPart d = false := headAvoids_cons_iff.mp hstops
          obtain rfl : d = '\n' := by simpa [Lexeme.isCommentPart] using hfeed
          exact hline.2 List.mem_cons_self
        subst hnil
        rw [← hrest]
        exact tellingFrom_comment before hvalid (headAvoids_nil _)
      · have hreturn : lexeme.Stops (rest ++ ['\r']) := by
          apply hstops.append_cons (by decide) _ hopen
          apply Lexeme.stops_cons (by decide) (by decide) (by decide) (by decide) _ hopen
          intro body heq
          exact absurd ⟨body, heq⟩ hcomment
        rw [tellingFrom_append before hvalid hreturn, hrest]

/-- A line of a source tells what it tells without the carriage return at its
end, and what follows is told of after it. -/
theorem tellingFrom_line
    {line : List Char}
    (before rest : List Char)
    (hline : '\n' ∉ line)
    (hclosed : LeavesNoneOpen (Lines.withoutReturn '\r' line)) :
    tellingFrom before (line ++ '\n' :: rest) =
      tellingFrom before (Lines.withoutReturn '\r' line) ++
        tellingFrom (before ++ (line ++ ['\n'])) rest := by
  have hreturn : ∀ around, tellingFrom around line =
      tellingFrom around (Lines.withoutReturn '\r' line) := by
    intro around
    unfold Lines.withoutReturn at hclosed ⊢
    split at hclosed
    · rename_i hlast
      rw [if_pos hlast]
      obtain ⟨front, rfl⟩ := List.getLast?_eq_some_iff.mp hlast
      rw [List.dropLast_concat] at hclosed ⊢
      rw [List.mem_append, not_or] at hline
      exact tellingFrom_append_return around hline.1 hclosed
    · rename_i hlast
      rw [if_neg hlast]
  have hnone : LeavesNoneOpen line := leavesNoneOpen_of_tellingFrom_eq hclosed (hreturn [])
  rw [(seam_lineFeed hnone rest).tellingFrom_eq, hreturn, tellingFrom_feed, List.append_assoc]

/-! ## The lexemes of all lines -/

/-- A lexeme of a source, and the same lexeme of a line by itself, together with
the number of that line. -/
structure Placed.FromLine (placed : Placed) (entry : Placed × Nat) : Prop where
  lexeme : entry.1.lexeme = placed.lexeme
  line : placed.line = entry.2
  firstLine : entry.1.line = 1
  fits : FitsWords placed.before

theorem forall₂_fromLine_place
    {before front : List Char} {lexemes : List Lexeme}
    (hline : '\n' ∉ front ++ Lexeme.textOf lexemes)
    (hfits : FitsWords (before ++ front ++ Lexeme.textOf lexemes)) :
    List.Forall₂ Placed.FromLine (place (before ++ front) lexemes)
      ((place front lexemes).map fun placed => (placed, 1 + before.count '\n')) := by
  induction lexemes generalizing front with
  | nil => exact .nil
  | cons lexeme others ih =>
      have hfront : front.count '\n' = 0 :=
        List.count_eq_zero.mpr fun hmem => hline (List.mem_append_left _ hmem)
      have hbefore := hfits.mono (List.prefix_append _ _)
      refine .cons ⟨rfl, ?_, ?_, hbefore⟩ ?_
      · rw [Placed.line, List.count_append, hfront, Nat.add_zero]
      · rw [Placed.line, hfront]
      · rw [Lexeme.textOf_cons, ← List.append_assoc] at hline hfits
        rw [List.append_assoc before] at hfits ⊢
        exact ih hline hfits

/-- A line in a source tells what it tells by itself. -/
theorem forall₂_fromLine_tellingFrom
    {before line : List Char}
    (hline : '\n' ∉ line)
    (hfits : FitsWords (before ++ line)) :
    List.Forall₂ Placed.FromLine (tellingFrom before line)
      ((tellingFrom [] line).map fun placed => (placed, 1 + before.count '\n')) := by
  have hplaced : List.Forall₂ Placed.FromLine (place (before ++ []) (Lexeme.cut line))
      ((place [] (Lexeme.cut line)).map fun placed => (placed, 1 + before.count '\n')) := by
    apply forall₂_fromLine_place
    · rwa [List.nil_append, Lexeme.textOf_cut]
    · rwa [List.append_nil, Lexeme.textOf_cut]
  rw [List.append_nil] at hplaced
  have hfilter := List.rel_filter
    (R := Placed.FromLine) (p := fun placed => placed.lexeme.tells)
    (q := fun entry : Placed × Nat => entry.1.lexeme.tells) ?_ hplaced
  · rw [List.filter_map] at hfilter
    exact hfilter
  · intro placed entry hfrom
    simp only [hfrom.lexeme]

/-- A source tells what its lines tell. -/
theorem forall₂_fromLine
    {before source : List Char}
    (hfits : FitsWords (before ++ source))
    (hclosed : ∀ line ∈ Lines.ofChars source, LeavesNoneOpen line) :
    List.Forall₂ Placed.FromLine (tellingFrom before source)
      (numbered (tellingFrom []) (1 + before.count '\n') (Lines.ofChars source)) := by
  -- one line is taken off the source at a time
  obtain ⟨front, head, rfl, hfront, hhead⟩ := exists_wholeLines_append source
  induction hfront generalizing before with
  | nil =>
      rw [List.nil_append] at hfits ⊢
      by_cases hempty : head = []
      · rw [hempty, tellingFrom_nil, Lines.ofChars_nil]
        exact .nil
      · rw [Lines.ofChars_of_not_mem hempty hhead, numbered_cons]
        rw [numbered_nil, List.append_nil]
        exact forall₂_fromLine_tellingFrom hhead hfits
  | @cons line rest hline _ ih =>
      rw [List.append_assoc, List.cons_append] at hfits hclosed ⊢
      rw [Lines.ofChars_append_feed hline] at hclosed ⊢
      rw [List.forall_mem_cons] at hclosed
      rw [tellingFrom_line before (rest ++ head) hline hclosed.1, numbered_cons]
      have hinitial := Lines.withoutReturn_initial line
      apply List.rel_append
      · apply forall₂_fromLine_tellingFrom
        · intro hmem
          exact hline (hinitial.subset hmem)
        · refine hfits.mono ?_
          rw [List.prefix_append_right_inj]
          exact hinitial.trans (List.prefix_append _ _)
      · have hlater : FitsWords (before ++ (line ++ ['\n']) ++ (rest ++ head)) := by
          rwa [List.append_assoc, List.append_assoc, List.singleton_append]
        have hnumber : 1 + (before ++ (line ++ ['\n'])).count '\n' =
            1 + before.count '\n' + 1 := by
          rw [List.count_append, List.count_append, List.count_eq_zero.mpr hline,
            List.count_singleton_self, Nat.zero_add, Nat.add_assoc]
        rw [← hnumber]
        exact ih hlater hclosed.2

/-! ## The scans of all lines -/

/-- A diagnostic of a source, and the same diagnostic of a line by itself,
together with the number of that line. -/
structure Diagnostic.FromLine (diagnostic : Diagnostic) (entry : Diagnostic × Nat) : Prop where
  code : entry.1.code = diagnostic.code
  message : entry.1.message = diagnostic.message
  line : diagnostic.line.toNat = entry.2
  firstLine : entry.1.line = 1

namespace Placed.FromLine

variable {placed : Placed} {entry : Placed × Nat}

theorem token?
    (hfrom : placed.FromLine entry) :
    Option.Rel (fun token shown => Token.SameContent token shown.1) placed.token?
      (entry.1.token?.map fun token => (token, entry.2)) := by
  unfold Placed.token?
  rw [hfrom.lexeme]
  cases placed.lexeme.meaning with
  | token kind literal => exact .some ⟨rfl, rfl, rfl⟩
  | error template arguments => exact .none
  | nothing => exact .none

theorem diagnostic?
    (hfrom : placed.FromLine entry) :
    Option.Rel Diagnostic.FromLine placed.diagnostic?
      (entry.1.diagnostic?.map fun diagnostic => (diagnostic, entry.2)) := by
  unfold Placed.diagnostic?
  rw [hfrom.lexeme]
  cases placed.lexeme.meaning with
  | token kind literal => exact .none
  | error template arguments =>
      refine .some ⟨rfl, rfl, ?_, ?_⟩
      · simp only [Diagnostic.spanning, Diagnostic.ofTemplate]
        rw [← hfrom.line, Placed.line, hfrom.fits.toNat_line]
      · simp only [Diagnostic.spanning, Diagnostic.ofTemplate]
        rw [hfrom.firstLine]
        rfl
  | nothing => exact .none

end Placed.FromLine

/-- A result of scanning a line. -/
structure Scan.IsOf (line : List Char) (result : Scan Log) : Prop where
  scan : LoxLexer.scan (String.ofList line) = .ok result
  tokens : result.tokens = tokensOf line
  diagnostics : result.reports.toList = diagnosticsOf line

theorem exists_scan_isOf
    {line : List Char}
    (hfits : FitsWords line) :
    ∃ result, Scan.IsOf line result := by
  have hline : FitsWords (String.ofList line).toList := by rwa [String.toList_ofList]
  obtain ⟨result, hresult, htokens, hdiagnostics⟩ := exists_scan_eq_ok hline
  rw [String.toList_ofList] at htokens hdiagnostics
  exact ⟨result, hresult, htokens, hdiagnostics⟩

theorem exists_forall₂_isOf
    {lines : List (List Char)}
    (hfits : ∀ line ∈ lines, FitsWords line) :
    ∃ results, List.Forall₂ Scan.IsOf lines results :=
  exists_forall₂ fun line hline => exists_scan_isOf (hfits line hline)

/-- A scan of a source gives what the scans of its lines give, one after the
other. -/
structure Scan.IsByLine (whole : Scan Log) (results : List (Scan Log)) : Prop where
  tokens : List.Forall₂ Token.SameContent
    (whole.tokens.filter fun token => !token.isEnd)
    (results.flatMap fun result => result.tokens.filter fun token => !token.isEnd)
  diagnostics : List.Forall₂ Diagnostic.FromLine whole.reports.toList
    (numbered (fun result : Scan Log => result.reports.toList) 1 results)

theorem filter_not_isEnd_tokensOf_eq_telling (source : List Char) :
    (tokensOf source).filter (fun token => !token.isEnd) =
      (tellingFrom [] source).filterMap Placed.token? := by
  have hnone : ∀ placed : Placed, placed.lexeme.meaning = .nothing → placed.token? = none := by
    intro placed hmeaning
    rw [Placed.token?, hmeaning]
  rw [filter_not_isEnd_tokensOf, filterMap_tellingFrom hnone]
  rfl

/-- A source none of whose lines leaves a string open is scanned line by line. -/
theorem Scan.IsOf.isByLine
    {source : List Char} {whole : Scan Log} {results : List (Scan Log)}
    (hwhole : Scan.IsOf source whole)
    (hresults : List.Forall₂ Scan.IsOf (Lines.ofChars source) results)
    (hfits : FitsWords source)
    (hclosed : ∀ line ∈ Lines.ofChars source, LeavesNoneOpen line) :
    whole.IsByLine results := by
  rw [← List.nil_append source] at hfits
  have htelling := forall₂_fromLine hfits hclosed
  rw [List.count_nil] at htelling
  constructor
  · have htokens := List.rel_filterMap (fun _ _ hfrom => hfrom.token?) htelling
    rw [filterMap_numbered] at htokens
    rw [hwhole.tokens, filter_not_isEnd_tokensOf_eq_telling, ← map_fst_numbered _ 1,
      numbered_eq_of_forall₂ hresults, List.forall₂_map_right_iff]
    · exact htokens
    · intro line result hresult
      rw [hresult.tokens, filter_not_isEnd_tokensOf_eq_telling]
  · have hdiagnostics := List.rel_filterMap (fun _ _ hfrom => hfrom.diagnostic?) htelling
    rw [filterMap_numbered] at hdiagnostics
    rw [hwhole.diagnostics, diagnosticsOf_eq_telling, numbered_eq_of_forall₂ hresults]
    · exact hdiagnostics
    · intro line result hresult
      rw [hresult.diagnostics, diagnosticsOf_eq_telling]

end LoxLexer

import LoxLexer.Proofs.Cli.Session
import LoxLexer.Proofs.Scan.LineByLine
import LoxLexer.Proofs.Token.DumpLines

/-!
# A file and a prompt

A text is scanned as a whole when it is in a file, and line by line when it is
typed at a prompt.  If none of its lines leaves a string open or is a command,
the two modes find the same tokens and the same errors, and write the same dump
but for the line of the end of the input, which a prompt writes after each line.

At a prompt the text must not hold a backspace.  There a backspace takes back
what was typed before it, while in a file it is a character that begins nothing.
-/

namespace LoxLexer
namespace Cli

/-- The lines of a text. -/
def promptLines (source : String) : List String :=
  (Lines.ofChars source.toList).map String.ofList

/-- A line that is a command, blanks around it left aside. -/
def IsCommand (line : String) : Prop :=
  String.ofList (Blank.trim line.toList) ∈ [".exit", ".quit", ".help"]

instance (line : String) : Decidable (IsCommand line) :=
  inferInstanceAs (Decidable (_ ∈ _))

/-- A line in which a string is left open. -/
def LeavesOpen (line : String) : Prop :=
  ∃ result, scan line = .ok result ∧
    ∃ diagnostic ∈ result.reports.toList, diagnostic.code = 1002

/-- The sources that are scanned at a prompt, up to a line that leaves it. -/
def promptSources : List (List UInt8) → List String
  | [] => []
  | line :: others =>
    match decode ⟨line.toArray⟩ with
    | .error _ => []
    | .ok typed =>
      match PromptLine.ofTyped typed.toList with
      | .leave => []
      | .help => promptSources others
      | .source text => text :: promptSources others

/-- The options of a run that writes text dumps. -/
structure Options.DumpsText (options : Options) : Prop where
  format : options.format = .text
  quiet : options.quiet = false

/-- What the two modes have written is the dump of one scan, and the dumps of
the scans of lines; without the line of the end of the input they are equal. -/
structure DumpsAgree (whole : Scan Log) (results : List (Scan Log))
    (ofFile ofPrompt : Outcome) : Prop where
  file : ofFile.stdout = Token.dump .text whole.tokens
  prompt : ofPrompt.stdout =
    String.join (results.map fun result => Token.dump .text result.tokens)
  same : withoutLine endLine ofPrompt.stdout.toList = withoutLine endLine ofFile.stdout.toList

/-- A source gives the same tokens, diagnostics and text dump in a file and at a
prompt. -/
def ModesAgree (source : String) : Prop :=
  ∃ whole results, scan source = .ok whole ∧
    List.Forall₂ (fun text result => scan text = .ok result)
      (promptSources (Lines.ofBytes source.toUTF8.toList)) results ∧
    whole.IsByLine results ∧
    ∀ (surroundings : Surroundings) (options : Options) (name : String),
      surroundings.read name = .ok source.toUTF8 → surroundings.stdin = source.toUTF8 →
      options.DumpsText →
      ∃ ofFile ofPrompt,
        runOptions surroundings { options with file := some name } = .ok ofFile ∧
        runOptions surroundings { options with file := none } = .ok ofPrompt ∧
        DumpsAgree whole results ofFile ofPrompt

/-! ## The lines at a prompt -/

theorem ofTyped_eq_source
    {line : List Char}
    (hmark : Backspace.mark ∉ line)
    (hcommand : ¬ IsCommand (String.ofList line)) :
    PromptLine.ofTyped line = .source (String.ofList line) := by
  rw [IsCommand, String.toList_ofList] at hcommand
  simp only [List.mem_cons, List.not_mem_nil, or_false, not_or] at hcommand
  obtain ⟨hexit, hquit, hhelp⟩ := hcommand
  have hsource : PromptLine.ofTyped line = .source (String.ofList (Backspace.apply line)) := by
    apply ofTyped_of_source
    · rw [Backspace.apply_eq_self hmark, leavesPrompt_iff, not_or]
      exact ⟨hexit, hquit⟩
    · rw [Backspace.apply_eq_self hmark]
      exact hhelp
  rwa [Backspace.apply_eq_self hmark] at hsource

/-- Lines that are sources are scanned as they are. -/
theorem promptSources_utf8
    {lines : List (List Char)}
    (hasked : ∀ line ∈ lines, PromptLine.ofTyped line = .source (String.ofList line)) :
    promptSources (lines.map utf8) = lines.map String.ofList := by
  induction lines with
  | nil => rfl
  | cons line others ih =>
      rw [List.forall_mem_cons] at hasked
      rw [List.map_cons, List.map_cons, promptSources, decode_utf8]
      simp only [String.toList_ofList, hasked.1]
      rw [ih hasked.2]

/-- Lines that are sources are presented one after the other. -/
theorem ofLines_utf8
    {options : Options} {palette : Palette} {lines : List (List Char)}
    {shown : List Presentation}
    (hasked : ∀ line ∈ lines, PromptLine.ofTyped line = .source (String.ofList line))
    (hshown : List.Forall₂ (fun line (presentation : Presentation) =>
      Presentation.ofSource options palette none (String.ofList line) = .ok presentation)
        lines shown)
    (stdout stderr : String) :
    Outcome.ofLines options palette stdout stderr (lines.map utf8) =
      .ok ⟨.success, stdout ++ String.join (shown.map Presentation.dump),
        stderr ++ String.join (shown.map Presentation.reports)⟩ := by
  induction hshown generalizing stdout stderr with
  | nil =>
      rw [List.map_nil, Outcome.ofLines]
      simp
  | @cons line presentation _ _ hfirst _ ih =>
      rw [List.forall_mem_cons] at hasked
      have hstays : PromptLine.ofTyped line ≠ .leave := by
        rw [hasked.1]
        exact PromptLine.noConfusion
      have hanswer : answerLine options palette (PromptLine.ofTyped line) =
          .ok (presentation.dump, presentation.reports) := by
        rw [hasked.1, answerLine, hfirst]
        rfl
      rw [List.map_cons, ofLines_of_answer hstays hanswer, ih hasked.2, List.map_cons,
        List.map_cons, String.join_cons, String.join_cons, String.append_assoc,
        String.append_assoc]

/-! ## The dumps of lines -/

theorem lexeme_subset_of_mem_tokensOf
    {source : List Char} {token : Token}
    (hmem : token ∈ tokensOf source) :
    token.lexeme.toList ⊆ source := by
  intro c hc
  rcases mem_tokensOf_iff.mp hmem with ⟨placed, hplaced, htoken⟩ | rfl
  · obtain ⟨rest, hsource, -⟩ := (Placed.standsIn_of_mem_placedOf hplaced).stops
    rw [(Placed.token?_eq_some_iff.mp htoken).2.1, String.toList_ofList] at hc
    rw [hsource]
    exact List.mem_append_left _ (List.mem_append_right _ hc)
  · cases hc

theorem join_dump (results : List (Scan Log)) :
    String.join (results.map fun result => Token.dump .text result.tokens) =
      Token.dump .text (results.flatMap Scan.tokens) := by
  apply String.toList_injective
  rw [String.toList_join, Token.toList_dump_text, List.flatMap_map, List.flatMap_assoc]
  congr 1
  funext result
  exact Token.toList_dump_text result.tokens

/-- The dump of a source and those of its lines are equal but for the line of
the end of the input. -/
theorem withoutLine_dump_of_isByLine
    {source : List Char} {whole : Scan Log} {results : List (Scan Log)}
    (hwhole : whole.IsOf source)
    (hresults : List.Forall₂ Scan.IsOf (Lines.ofChars source) results)
    (hbyLine : whole.IsByLine results) :
    withoutLine endLine
        (String.join (results.map fun result => Token.dump .text result.tokens)).toList =
      withoutLine endLine (Token.dump .text whole.tokens).toList := by
  have hlines : ∀ token ∈ results.flatMap Scan.tokens,
      token.Spelled ∧ '\n' ∉ token.lexeme.toList := by
    intro token hmem
    obtain ⟨result, hresult, htoken⟩ := List.mem_flatMap.mp hmem
    obtain ⟨line, hline, hof⟩ := exists_mem_of_forall₂ hresults hresult
    rw [hof.tokens] at htoken
    refine ⟨spelled_of_mem_tokensOf htoken, ?_⟩
    intro hfeed
    exact (Lines.infix_and_noFeed_of_mem_ofChars hline).2
      (lexeme_subset_of_mem_tokensOf htoken hfeed)
  have htokens : ∀ token ∈ whole.tokens, token.Spelled := by
    intro token hmem
    rw [hwhole.tokens] at hmem
    exact spelled_of_mem_tokensOf hmem
  have hlexemes : ∀ token ∈ whole.tokens, '\n' ∉ token.lexeme.toList := by
    intro token hmem
    by_cases hend : token.isEnd = true
    · rw [((htokens token hmem).of_isEnd hend).1]
      decide
    · have hkept : token ∈ whole.tokens.filter fun token => !token.isEnd := by
        rw [List.mem_filter]
        exact ⟨hmem, by simpa using hend⟩
      obtain ⟨other, hother, hsame⟩ := exists_mem_of_forall₂ hbyLine.tokens.flip hkept
      obtain ⟨result, hresult, hfiltered⟩ := List.mem_flatMap.mp hother
      rw [← hsame.lexeme]
      exact (hlines other (List.mem_flatMap.mpr
        ⟨result, hresult, (List.mem_filter.mp hfiltered).1⟩)).2
  rw [join_dump, Token.withoutLine_dump (fun token hmem => (hlines token hmem).1)
    (fun token hmem => (hlines token hmem).2), Token.withoutLine_dump htokens hlexemes,
    List.filter_flatMap]
  exact (Token.flatMap_entry_eq_of_forall₂ hbyLine.tokens).symm

/-! ## The two modes -/

theorem Presentation.IsOf.dump_eq_text
    {options : Options} {palette : Palette} {file : Option String} {source : String}
    {result : Scan Log} {shown : Presentation}
    (hshown : Presentation.IsOf options palette file source result shown)
    (hoptions : options.DumpsText) :
    shown.dump = Token.dump .text result.tokens := by
  rw [hshown.dump, hoptions.quiet, hoptions.format]
  rfl

/-- In a file a text is dumped as a whole. -/
theorem exists_ofFile_eq_ok
    {source : String} {whole : Scan Log} {options : Options}
    (hfits : FitsWords source.toList)
    (hwhole : scan source = .ok whole)
    (hoptions : options.DumpsText)
    (palette : Palette) (name : String) :
    ∃ outcome, Outcome.ofFile options palette name (.ok source.toUTF8) = .ok outcome ∧
      outcome.stdout = Token.dump .text whole.tokens := by
  have hdecode : (Except.ok source.toUTF8 : Except ReadError ByteArray).bind decode =
      .ok source := decode_toUTF8 source
  obtain ⟨result, shown, hshown⟩ := exists_presentation_isOf hfits options palette (some name)
  obtain rfl : result = whole := Except.ok.inj (hshown.scan.symm.trans hwhole)
  rw [Outcome.ofFile, hdecode]
  simp only [hshown.presented, Except.map]
  split
  · exact ⟨_, rfl, hshown.dump_eq_text hoptions⟩
  · exact ⟨_, rfl, hshown.dump_eq_text hoptions⟩

theorem exists_forall₂_presentation
    {lines : List (List Char)} {results : List (Scan Log)} {options : Options}
    (hresults : List.Forall₂ Scan.IsOf lines results)
    (hfits : ∀ line ∈ lines, FitsWords line)
    (hoptions : options.DumpsText)
    (palette : Palette) :
    ∃ shown, List.Forall₂ (fun line (presentation : Presentation) =>
        Presentation.ofSource options palette none (String.ofList line) = .ok presentation)
          lines shown ∧
      shown.map Presentation.dump = results.map fun result =>
        Token.dump .text result.tokens := by
  induction hresults with
  | nil => exact ⟨[], .nil, rfl⟩
  | @cons line result others more hfirst _ ih =>
      rw [List.forall_mem_cons] at hfits
      have hline : FitsWords (String.ofList line).toList := by
        rw [String.toList_ofList]
        exact hfits.1
      obtain ⟨other, presentation, hpresentation⟩ :=
        exists_presentation_isOf hline options palette none
      obtain rfl : other = result :=
        Except.ok.inj (hpresentation.scan.symm.trans hfirst.scan)
      obtain ⟨shown, hshown, hdumps⟩ := ih hfits.2
      refine ⟨presentation :: shown, .cons hpresentation.presented hshown, ?_⟩
      rw [List.map_cons, List.map_cons, hdumps, hpresentation.dump_eq_text hoptions]

/-- At a prompt a text is dumped line by line. -/
theorem exists_ofInput_eq_ok
    {source : String} {results : List (Scan Log)} {options : Options}
    (hresults : List.Forall₂ Scan.IsOf (Lines.ofChars source.toList) results)
    (hfits : ∀ line ∈ Lines.ofChars source.toList, FitsWords line)
    (hasked : ∀ line ∈ Lines.ofChars source.toList,
      PromptLine.ofTyped line = .source (String.ofList line))
    (hoptions : options.DumpsText)
    (palette : Palette) :
    ∃ outcome, Outcome.ofInput options palette source.toUTF8 = .ok outcome ∧
      outcome.stdout =
        String.join (results.map fun result => Token.dump .text result.tokens) := by
  obtain ⟨shown, hshown, hdumps⟩ := exists_forall₂_presentation hresults hfits hoptions palette
  have houtcome := ofLines_utf8 hasked hshown "" ""
  rw [← Lines.ofBytes_utf8, ← toList_toUTF8] at houtcome
  refine ⟨_, houtcome, ?_⟩
  rw [hdumps, String.empty_append]

theorem leavesOpen_iff
    {line : String}
    (hfits : FitsWords line.toList) :
    LeavesOpen line ↔ ∃ diagnostic ∈ diagnosticsOf line.toList, diagnostic.code = 1002 := by
  obtain ⟨result, hresult, -, hdiagnostics⟩ := exists_scan_eq_ok hfits
  rw [← hdiagnostics]
  constructor
  · rintro ⟨other, hother, hopen⟩
    obtain rfl : other = result := Except.ok.inj (hother.symm.trans hresult)
    exact hopen
  · intro hopen
    exact ⟨result, hresult, hopen⟩

/-- A text without backspaces is scanned alike in a file and at a prompt if none
of its lines leaves a string open or is a command. -/
theorem modesAgree_of_closed
    {source : String}
    (hlength : source.length ≤ 4294967294)
    (hclosed : ∀ line ∈ promptLines source, ¬ LeavesOpen line)
    (hcommand : ∀ line ∈ promptLines source, ¬ IsCommand line)
    (hmark : Backspace.mark ∉ source.toList) :
    promptSources (Lines.ofBytes source.toUTF8.toList) = promptLines source ∧
      ModesAgree source := by
  have hfits := fitsWords_of_length_le hlength
  have hlines : ∀ line ∈ Lines.ofChars source.toList, FitsWords line := by
    intro line hline
    exact hfits.of_infix (Lines.infix_and_noFeed_of_mem_ofChars hline).1
  have hopen : ∀ line ∈ Lines.ofChars source.toList, LeavesNoneOpen line := by
    intro line hline body hmem
    apply hclosed (String.ofList line) (List.mem_map_of_mem hline)
    rw [leavesOpen_iff (by rw [String.toList_ofList]; exact hlines line hline),
      String.toList_ofList]
    exact exists_mem_diagnosticsOf_of_unterminated hmem
  have hasked : ∀ line ∈ Lines.ofChars source.toList,
      PromptLine.ofTyped line = .source (String.ofList line) := by
    intro line hline
    apply ofTyped_eq_source
    · intro hmem
      exact hmark ((Lines.infix_and_noFeed_of_mem_ofChars hline).1.subset hmem)
    · exact hcommand (String.ofList line) (List.mem_map_of_mem hline)
  have hsources : promptSources (Lines.ofBytes source.toUTF8.toList) = promptLines source := by
    rw [toList_toUTF8, Lines.ofBytes_utf8, promptSources_utf8 hasked, promptLines]
  obtain ⟨whole, hwhole⟩ := exists_scan_isOf hfits
  obtain ⟨results, hresults⟩ := exists_forall₂_isOf hlines
  have hbyLine := hwhole.isByLine hresults hfits hopen
  refine ⟨hsources, whole, results, ?_, ?_, hbyLine, ?_⟩
  · have hscan := hwhole.scan
    rwa [String.ofList_toList] at hscan
  · rw [hsources, promptLines, List.forall₂_map_left_iff]
    exact hresults.imp fun line result hresult => hresult.scan
  · intro surroundings options name hread hstdin hoptions
    obtain ⟨hformat, hquiet⟩ := hoptions
    have hscan := hwhole.scan
    rw [String.ofList_toList] at hscan
    let palette := Palette.ofColor (options.color.enabled surroundings.terminal)
    have hfileOptions : Options.DumpsText { options with file := some name } :=
      ⟨hformat, hquiet⟩
    have hpromptOptions : Options.DumpsText { options with file := none } := ⟨hformat, hquiet⟩
    obtain ⟨ofFile, hofFile, hfile⟩ :=
      exists_ofFile_eq_ok hfits hscan hfileOptions palette name
    obtain ⟨ofPrompt, hofPrompt, hprompt⟩ :=
      exists_ofInput_eq_ok hresults hlines hasked hpromptOptions palette
    refine ⟨ofFile, ofPrompt, ?_, ?_, hfile, hprompt, ?_⟩
    · simp only [runOptions, hread]
      exact hofFile
    · simp only [runOptions, hstdin]
      exact hofPrompt
    · rw [hfile, hprompt]
      exact withoutLine_dump_of_isByLine hwhole hresults hbyLine

/-- A comment before a carriage return, a number before a point, an empty line,
an error, and no line feed at the end. -/
theorem modesAgree_of_closed_of_comment :
    "a//\"\r\n3.\n\n@ =".length ≤ 4294967294 ∧
      (∀ line ∈ promptLines "a//\"\r\n3.\n\n@ =", ¬ LeavesOpen line) ∧
      (∀ line ∈ promptLines "a//\"\r\n3.\n\n@ =", ¬ IsCommand line) ∧
      Backspace.mark ∉ "a//\"\r\n3.\n\n@ =".toList ∧
      promptSources (Lines.ofBytes "a//\"\r\n3.\n\n@ =".toUTF8.toList) =
        promptLines "a//\"\r\n3.\n\n@ =" ∧
      ModesAgree "a//\"\r\n3.\n\n@ =" := by
  have hlines : promptLines "a//\"\r\n3.\n\n@ =" = ["a//\"", "3.", "", "@ ="] := by
    decide +kernel
  have hclosed : ∀ line ∈ promptLines "a//\"\r\n3.\n\n@ =", ¬ LeavesOpen line := by
    intro line hline
    have hshort : line.length ≤ 4294967294 := by
      revert line
      rw [hlines]
      decide
    rw [leavesOpen_iff (fitsWords_of_length_le hshort)]
    revert line
    rw [hlines]
    decide +kernel
  have hcommand : ∀ line ∈ promptLines "a//\"\r\n3.\n\n@ =", ¬ IsCommand line := by
    rw [hlines]
    decide +kernel
  exact ⟨by decide, hclosed, hcommand, by decide,
    modesAgree_of_closed (by decide) hclosed hcommand (by decide)⟩

/-- A backspace after a letter: a file has the letter and an error, a prompt has
neither. -/
theorem not_modesAgree_of_backspace :
    ¬ ∀ source : String, source.length ≤ 4294967294 →
      (∀ line ∈ promptLines source, ¬ LeavesOpen line) →
      (∀ line ∈ promptLines source, ¬ IsCommand line) → ModesAgree source := by
  intro hagree
  have hlines : promptLines "x\x08" = ["x\x08"] := by decide +kernel
  have hfits : FitsWords "x\x08".toList := fitsWords_of_length_le (by decide)
  have hclosed : ∀ line ∈ promptLines "x\x08", ¬ LeavesOpen line := by
    intro line hline
    rw [hlines] at hline
    rw [List.mem_singleton.mp hline, leavesOpen_iff hfits]
    decide +kernel
  have hcommand : ∀ line ∈ promptLines "x\x08", ¬ IsCommand line := by
    rw [hlines]
    decide +kernel
  have htyped : PromptLine.ofTyped "x\x08".toList = .source "" := by decide +kernel
  have hsources : promptSources (Lines.ofBytes "x\x08".toUTF8.toList) = [""] := by
    have hchars : Lines.ofChars "x\x08".toList = ["x\x08".toList] := by decide +kernel
    rw [toList_toUTF8, Lines.ofBytes_utf8, hchars, List.map_singleton, promptSources,
      decode_utf8, String.ofList_toList]
    simp only [htyped, promptSources]
  obtain ⟨whole, results, hwhole, hresults, hbyLine, -⟩ :=
    hagree "x\x08" (by decide) hclosed hcommand
  rw [hsources, List.forall₂_cons_left_iff] at hresults
  obtain ⟨result, others, hresult, hothers, rfl⟩ := hresults
  obtain rfl := List.forall₂_nil_left_iff.mp hothers
  -- the file has one token before its end, the prompt none
  have hcount := hbyLine.tokens.length_eq
  have hempty : FitsWords "".toList := fitsWords_of_length_le (by decide)
  rw [(eq_of_scan_eq_ok hfits hwhole).1, List.flatMap_cons, List.flatMap_nil,
    (eq_of_scan_eq_ok hempty hresult).1] at hcount
  revert hcount
  decide +kernel

end Cli
end LoxLexer

import LoxLexer.Proofs.Cli.FileMode
import LoxLexer.Proofs.Report.SingleLine
import LoxLexer.Proofs.Scan.LineByLine
import LoxLexer.Proofs.Text.Backspace

/-!
# Sessions at a prompt

A session answers its lines one by one up to the first that leaves the prompt,
and an answer depends on its line alone: nothing that a line has done, and no
error in it, is remembered.  So the session on two inputs, the first of which
ends with a line feed, is the session on the first followed by that on the
second, unless the first is left early (`sessions_compose`).

The lines are those after their backspaces.  Without backspaces in the input they
are the lines as they were typed, and the law is one about those
(`typed_sessions_compose`).
-/

namespace LoxLexer
namespace Cli

open Palette

/-! ## What a session is -/

/-- The arguments are accepted and ask for a prompt. -/
structure AsksForPrompt (arguments : List String) (options : Options) : Prop where
  accepted : Request.ofArguments arguments = .ok (.run options)
  file : options.file = none

/-- A line without the blanks around it. -/
def command (line : List Char) : String := String.ofList (Blank.trim line)

/-- A line that ends the session. -/
def LeavesPrompt (line : List Char) : Prop := command line ∈ [".exit", ".quit"]

instance (line : List Char) : Decidable (LeavesPrompt line) :=
  inferInstanceAs (Decidable (_ ∈ _))

/-- The lines of an input after their backspaces. -/
def editedLines (input : String) : List (List Char) :=
  (Lines.ofChars input.toList).map Backspace.apply

/-- The lines of an input up to the first that leaves the prompt. -/
def answeredLines (input : String) : List (List Char) :=
  (editedLines input).takeWhile fun line => ¬ LeavesPrompt line

/-- What is written to the two outputs for a line: the help text, or the dump and
the reports of the line scanned by itself. -/
inductive Answers (options : Options) (palette : Palette) (line : List Char) :
    String × String → Prop
  | help :
      command line = ".help" →
      Answers options palette line (promptHelp, "")
  | source {result : Scan Log} {reports : List String} :
      command line ≠ ".help" →
      scan (String.ofList line) = .ok result →
      (∀ diagnostic ∈ result.reports.toList, diagnostic.line = 1) →
      List.Forall₂ (fun diagnostic report =>
        Report.ofDiagnostic palette (Page.ofChars line) diagnostic = .ok report ∧
          Report.IsOfLineOne palette report) result.reports.toList reports →
      Answers options palette line
        (if options.quiet then "" else Token.dump options.format result.tokens,
          String.join reports)

namespace Outcome

/-- The outcome is the answers to the lines of an input, and nothing else: it tells
of no failure, and no tally is among its reports.  An input without backspaces is
answered as it was typed. -/
structure IsSession (options : Options) (palette : Palette) (input : String)
    (outcome : Outcome) : Prop where
  exit : outcome.exit.code = 0
  answers : ∃ answers, List.Forall₂ (Answers options palette) (answeredLines input) answers ∧
    outcome.stdout = String.join (answers.map Prod.fst) ∧
    outcome.stderr = String.join (answers.map Prod.snd)
  noTally : ∀ count, (Report.tally palette count).toList ∉ outcome.stderr.toList.splitOn '\n'
  typed : Backspace.mark ∉ input.toList → editedLines input = Lines.ofChars input.toList

/-- The outcome for two inputs in a row is that for the first followed by that for
the second, or only that for the first if a line of it leaves the prompt. -/
structure Composes (first : String) (ofFirst ofSecond ofBoth : Outcome) : Prop where
  stays : (∀ line ∈ editedLines first, ¬ LeavesPrompt line) →
    ofBoth.stdout = ofFirst.stdout ++ ofSecond.stdout ∧
      ofBoth.stderr = ofFirst.stderr ++ ofSecond.stderr
  leaves : (∃ line ∈ editedLines first, LeavesPrompt line) → ofBoth = ofFirst

end Outcome

/-! ## One line -/

theorem leavesPrompt_iff (line : List Char) :
    LeavesPrompt line ↔ command line = ".exit" ∨ command line = ".quit" := by
  simp only [LeavesPrompt, List.mem_cons, List.not_mem_nil, or_false]

theorem ofTyped_of_leaves
    {typed : List Char}
    (hleaves : LeavesPrompt (Backspace.apply typed)) :
    PromptLine.ofTyped typed = .leave := by
  rw [leavesPrompt_iff] at hleaves
  exact if_pos hleaves

theorem ofTyped_of_help
    {typed : List Char}
    (hstays : ¬ LeavesPrompt (Backspace.apply typed))
    (hhelp : command (Backspace.apply typed) = ".help") :
    PromptLine.ofTyped typed = .help := by
  rw [leavesPrompt_iff] at hstays
  exact (if_neg hstays).trans (if_pos hhelp)

theorem ofTyped_of_source
    {typed : List Char}
    (hstays : ¬ LeavesPrompt (Backspace.apply typed))
    (hhelp : command (Backspace.apply typed) ≠ ".help") :
    PromptLine.ofTyped typed = .source (String.ofList (Backspace.apply typed)) := by
  rw [leavesPrompt_iff] at hstays
  exact (if_neg hstays).trans (if_neg hhelp)

theorem ofTyped_ne_leave
    {typed : List Char}
    (hstays : ¬ LeavesPrompt (Backspace.apply typed)) :
    PromptLine.ofTyped typed ≠ .leave := by
  by_cases hhelp : command (Backspace.apply typed) = ".help"
  · rw [ofTyped_of_help hstays hhelp]
    exact PromptLine.noConfusion
  · rw [ofTyped_of_source hstays hhelp]
    exact PromptLine.noConfusion

section

variable {options : Options} {palette : Palette} {line typed : List Char}
  {answer : String × String}

/-- A line that leaves the prompt ends the session with what has been written. -/
theorem ofLines_of_leave
    (hleave : PromptLine.ofTyped typed = .leave)
    (stdout stderr : String) (others : List (List UInt8)) :
    Outcome.ofLines options palette stdout stderr (utf8 typed :: others) =
      .ok ⟨.success, stdout, stderr⟩ := by
  rw [Outcome.ofLines, decode_utf8]
  simp only [String.toList_ofList, hleave]

/-- Any other line adds its answer to what has been written, and that is all. -/
theorem ofLines_of_answer
    (hstays : PromptLine.ofTyped typed ≠ .leave)
    (hanswer : answerLine options palette (PromptLine.ofTyped typed) = .ok answer)
    (stdout stderr : String) (others : List (List UInt8)) :
    Outcome.ofLines options palette stdout stderr (utf8 typed :: others) =
      Outcome.ofLines options palette (stdout ++ answer.1) (stderr ++ answer.2) others := by
  rw [Outcome.ofLines, decode_utf8]
  simp only [String.toList_ofList]
  cases hasked : PromptLine.ofTyped typed with
  | leave => exact absurd hasked hstays
  | help =>
      rw [hasked] at hanswer
      simp only [hanswer]
  | source text =>
      rw [hasked] at hanswer
      simp only [hanswer]

theorem Answers.answerLine_eq
    (hanswer : Answers options palette (Backspace.apply typed) answer)
    (hstays : ¬ LeavesPrompt (Backspace.apply typed)) :
    answerLine options palette (PromptLine.ofTyped typed) = .ok answer := by
  cases hanswer with
  | help hhelp =>
      rw [ofTyped_of_help hstays hhelp]
      rfl
  | @source result reports hhelp hscan _ hreports =>
      have hpage : Page.ofSource (String.ofList (Backspace.apply typed)) =
          Page.ofChars (Backspace.apply typed) := by
        rw [Page.ofSource, String.toList_ofList]
      have hmapM := mapM_eq_ok_of_forall₂ (hreports.imp fun _ _ hreport => hreport.1)
      rw [ofTyped_of_source hstays hhelp, answerLine, Presentation.ofSource, hscan, hpage]
      simp only [attach, bind, Except.bind, hmapM]
      rfl

theorem Answers.talliesNothing
    (hanswer : Answers options palette line answer) :
    Report.TalliesNothing palette answer.2.toList := by
  cases hanswer with
  | help _ => exact Report.TalliesNothing.nil
  | source _ _ _ hreports =>
      apply Report.TalliesNothing.join
      intro report hmem
      obtain ⟨_, -, -, hreport⟩ := exists_mem_of_forall₂ hreports hmem
      exact hreport.talliesNothing

/-- Every line has an answer. -/
theorem exists_answers
    (hfeed : '\n' ∉ line)
    (hfits : FitsWords line)
    (hpalette : palette.Invisible)
    (options : Options) :
    ∃ answer, Answers options palette line answer := by
  by_cases hhelp : command line = ".help"
  · exact ⟨_, .help hhelp⟩
  · obtain ⟨result, hresult⟩ := exists_scan_isOf hfits
    have hreported : ∀ diagnostic ∈ result.reports.toList, diagnostic.line = 1 ∧ ∃ report,
        Report.ofDiagnostic palette (Page.ofChars line) diagnostic = .ok report ∧
          Report.IsOfLineOne palette report := by
      rw [hresult.diagnostics]
      intro diagnostic hmem
      exact exists_report_of_noFeed hfeed hfits hpalette hmem
    obtain ⟨reports, hreports⟩ := exists_forall₂ fun diagnostic hmem =>
      (hreported diagnostic hmem).2
    exact ⟨_, .source hhelp hresult.scan (fun diagnostic hmem => (hreported diagnostic hmem).1)
      hreports⟩

end

/-! ## All lines -/

section

variable {options : Options} {palette : Palette}

/-- The lines of an input that are answered have answers. -/
theorem exists_forall₂_answers
    {input : String}
    (hlines : ∀ line ∈ Lines.ofChars input.toList, line.length ≤ 4294967294)
    (hpalette : palette.Invisible)
    (options : Options) :
    ∃ answers, List.Forall₂ (Answers options palette) (answeredLines input) answers := by
  apply exists_forall₂
  intro edited hmem
  obtain ⟨line, hline, rfl⟩ := List.mem_map.mp ((List.takeWhile_subset _) hmem)
  have hedited := Backspace.apply_sublist line
  have hfits : FitsWords line := by
    have hlength := hlines line hline
    have hsize : UInt32.size = 4294967296 := rfl
    rw [FitsWords]
    omega
  apply exists_answers _ (hfits.of_sublist hedited) hpalette
  intro hfeed
  exact (Lines.infix_and_noFeed_of_mem_ofChars hline).2 (hedited.subset hfeed)

theorem editedLines_eq_ofChars
    {input : String}
    (hmark : Backspace.mark ∉ input.toList) :
    editedLines input = Lines.ofChars input.toList := by
  rw [editedLines]
  refine (List.map_congr_left ?_).trans (List.map_id _)
  intro line hline
  apply Backspace.apply_eq_self
  exact fun hmem => hmark ((Lines.infix_and_noFeed_of_mem_ofChars hline).1.subset hmem)

/-- A session writes the answers to its lines up to the first that leaves it. -/
theorem ofLines_of_answers
    {lines : List (List Char)} {answers : List (String × String)}
    (hanswers : List.Forall₂ (Answers options palette)
      ((lines.map Backspace.apply).takeWhile fun line => ¬ LeavesPrompt line) answers)
    (stdout stderr : String) :
    Outcome.ofLines options palette stdout stderr (lines.map utf8) =
      .ok ⟨.success, stdout ++ String.join (answers.map Prod.fst),
        stderr ++ String.join (answers.map Prod.snd)⟩ := by
  -- the outputs so far are all that is carried from one line to the next
  induction lines generalizing answers stdout stderr with
  | nil =>
      cases hanswers
      rw [List.map_nil, Outcome.ofLines]
      simp
  | cons line others ih =>
      rw [List.map_cons] at hanswers ⊢
      by_cases hleaves : LeavesPrompt (Backspace.apply line)
      · rw [List.takeWhile_cons_of_neg (by simpa using hleaves)] at hanswers
        cases hanswers
        rw [ofLines_of_leave (ofTyped_of_leaves hleaves)]
        simp
      · rw [List.takeWhile_cons_of_pos (by simpa using hleaves)] at hanswers
        cases hanswers with
        | @cons _ answer _ more hanswer hmore =>
            rw [ofLines_of_answer (ofTyped_ne_leave hleaves) (hanswer.answerLine_eq hleaves),
              ih hmore, List.map_cons, List.map_cons, String.join_cons, String.join_cons,
              String.append_assoc, String.append_assoc]

/-- What has been written once all answers have been given. -/
def Outcome.ofAnswers (answers : List (String × String)) : Outcome :=
  ⟨.success, String.join (answers.map Prod.fst), String.join (answers.map Prod.snd)⟩

/-- The outcome is the answers to lines, up to the first that leaves the prompt. -/
def Outcome.AnswersLines (options : Options) (palette : Palette) (lines : List (List Char))
    (outcome : Outcome) : Prop :=
  ∃ answers, List.Forall₂ (Answers options palette)
    (lines.takeWhile fun line => ¬ LeavesPrompt line) answers ∧
    outcome = Outcome.ofAnswers answers

theorem run_eq_ok_of_answers
    {surroundings : Surroundings} {arguments : List String} {input : String}
    {answers : List (String × String)}
    (hasks : AsksForPrompt arguments options)
    (hanswers : List.Forall₂ (Answers options (paletteOf surroundings options))
      (answeredLines input) answers) :
    run { surroundings with stdin := input.toUTF8 } arguments =
      .ok (Outcome.ofAnswers answers) := by
  have houtcome := ofLines_of_answers hanswers "" ""
  rw [String.empty_append, String.empty_append, ← Lines.ofBytes_utf8, ← toList_toUTF8] at houtcome
  rw [run, hasks.accepted]
  simp only [respond, runOptions, hasks.file]
  exact houtcome

theorem isSession_ofAnswers
    {input : String} {answers : List (String × String)}
    (hanswers : List.Forall₂ (Answers options palette) (answeredLines input) answers) :
    (Outcome.ofAnswers answers).IsSession options palette input where
  exit := rfl
  answers := ⟨answers, hanswers, rfl, rfl⟩
  noTally := by
    apply Report.TalliesNothing.not_mem_splitOn
    apply Report.TalliesNothing.join
    intro reports hmem
    obtain ⟨answer, hanswer, rfl⟩ := List.mem_map.mp hmem
    obtain ⟨_, -, hline⟩ := exists_mem_of_forall₂ hanswers hanswer
    exact hline.talliesNothing
  typed := editedLines_eq_ofChars

end

/-! ## Two inputs -/

theorem wholeLines_of_getLast?
    {text : List Char}
    (hlast : text = [] ∨ text.getLast? = some '\n') :
    WholeLines text := by
  obtain ⟨front, head, rfl, hfront, hhead⟩ := exists_wholeLines_append text
  by_cases hempty : head = []
  · rwa [hempty, List.append_nil]
  · rcases hlast with hnil | hlast
    · exact absurd (List.append_eq_nil_iff.mp hnil).2 hempty
    · rw [List.getLast?_append_of_ne_nil _ hempty] at hlast
      exact absurd (List.mem_of_getLast? hlast) hhead

section

variable {first second : String} {options : Options} {palette : Palette}
  {answers more : List (String × String)}

theorem editedLines_append
    (hfirst : WholeLines first.toList) :
    editedLines (first ++ second) = editedLines first ++ editedLines second := by
  rw [editedLines, String.toList_append, hfirst.ofChars_append, List.map_append]
  rfl

/-- The lines of an input that is not left early are all answered, and then those
of the next one. -/
theorem answeredLines_append_of_stays
    (hfirst : WholeLines first.toList)
    (hstays : ∀ line ∈ editedLines first, ¬ LeavesPrompt line) :
    answeredLines (first ++ second) = answeredLines first ++ answeredLines second := by
  have hall : ∀ line ∈ editedLines first, decide (¬ LeavesPrompt line) = true :=
    fun line hmem => decide_eq_true (hstays line hmem)
  rw [answeredLines, editedLines_append hfirst, List.takeWhile_append_of_pos hall,
    answeredLines, List.takeWhile_eq_self_iff.mpr hall, answeredLines]

/-- Once an input is left, nothing of the next one is answered. -/
theorem answeredLines_append_of_leaves
    (hfirst : WholeLines first.toList)
    (hleaves : ∃ line ∈ editedLines first, LeavesPrompt line) :
    answeredLines (first ++ second) = answeredLines first := by
  obtain ⟨line, hmem, hleaves⟩ := hleaves
  have hpart : ((editedLines first).takeWhile fun line => ¬ LeavesPrompt line).length ≠
      (editedLines first).length := by
    intro hlength
    have hself := (List.takeWhile_prefix _).eq_of_length hlength
    exact absurd (List.takeWhile_eq_self_iff.mp hself line hmem) (by simpa using hleaves)
  rw [answeredLines, editedLines_append hfirst, List.takeWhile_append, if_neg hpart, answeredLines]

theorem Outcome.composes_ofAnswers_of_stays
    (hstays : ∀ line ∈ editedLines first, ¬ LeavesPrompt line) :
    Outcome.Composes first (ofAnswers answers) (ofAnswers more) (ofAnswers (answers ++ more)) where
  stays _ := by simp only [ofAnswers, List.map_append, String.join_append, and_self]
  leaves hleaves := by
    obtain ⟨line, hmem, hleave⟩ := hleaves
    exact absurd hleave (hstays line hmem)

theorem Outcome.composes_ofAnswers_of_leaves
    (hleaves : ∃ line ∈ editedLines first, LeavesPrompt line) :
    Outcome.Composes first (ofAnswers answers) (ofAnswers more) (ofAnswers answers) where
  stays hstays := by
    obtain ⟨line, hmem, hleave⟩ := hleaves
    exact absurd hleave (hstays line hmem)
  leaves _ := rfl

/-- The answers to two inputs in a row come from the answers to either. -/
theorem exists_composes
    (hfirst : WholeLines first.toList)
    (hanswers : List.Forall₂ (Answers options palette) (answeredLines first) answers)
    (hmore : List.Forall₂ (Answers options palette) (answeredLines second) more) :
    ∃ both, List.Forall₂ (Answers options palette) (answeredLines (first ++ second)) both ∧
      Outcome.Composes first (Outcome.ofAnswers answers) (Outcome.ofAnswers more)
        (Outcome.ofAnswers both) := by
  by_cases hleaves : ∃ line ∈ editedLines first, LeavesPrompt line
  · refine ⟨answers, ?_, Outcome.composes_ofAnswers_of_leaves hleaves⟩
    rw [answeredLines_append_of_leaves hfirst hleaves]
    exact hanswers
  · have hstays : ∀ line ∈ editedLines first, ¬ LeavesPrompt line :=
      fun line hmem hleave => hleaves ⟨line, hmem, hleave⟩
    refine ⟨answers ++ more, ?_, Outcome.composes_ofAnswers_of_stays hstays⟩
    rw [answeredLines_append_of_stays hfirst hstays]
    exact List.rel_append hanswers hmore

/-- Two inputs and both in a row, each with the answers to its lines. -/
theorem exists_answers_append
    (hpalette : palette.Invisible)
    (hwhole : first = "" ∨ first.toList.getLast? = some '\n')
    (hlines : ∀ line ∈ Lines.ofChars first.toList ++ Lines.ofChars second.toList,
      line.length ≤ 4294967294)
    (options : Options) :
    ∃ answers more both,
      List.Forall₂ (Answers options palette) (answeredLines first) answers ∧
      List.Forall₂ (Answers options palette) (answeredLines second) more ∧
      List.Forall₂ (Answers options palette) (answeredLines (first ++ second)) both ∧
      Outcome.Composes first (Outcome.ofAnswers answers) (Outcome.ofAnswers more)
        (Outcome.ofAnswers both) := by
  rw [List.forall_mem_append] at hlines
  obtain ⟨answers, hanswers⟩ := exists_forall₂_answers hlines.1 hpalette options
  obtain ⟨more, hmore⟩ := exists_forall₂_answers hlines.2 hpalette options
  have hfirst : WholeLines first.toList := by
    apply wholeLines_of_getLast?
    rcases hwhole with rfl | hlast
    · exact Or.inl rfl
    · exact Or.inr hlast
  obtain ⟨both, hboth, hcomposes⟩ := exists_composes hfirst hanswers hmore
  exact ⟨answers, more, both, hanswers, hmore, hboth, hcomposes⟩

end

/-- A session always ends in success, with the answers to its lines.  On two inputs
in a row, the first of them whole lines, it writes what the session on the first
writes and then what that on the second does; but if a line of the first leaves the
prompt, the second input is as if it were not there. -/
theorem sessions_compose
    {arguments : List String} {options : Options} {first second : String}
    (hasks : AsksForPrompt arguments options)
    (hwhole : first = "" ∨ first.toList.getLast? = some '\n')
    (hlines : ∀ line ∈ Lines.ofChars first.toList ++ Lines.ofChars second.toList,
      line.length ≤ 4294967294)
    (surroundings : Surroundings) :
    ∃ ofFirst ofSecond ofBoth,
      run { surroundings with stdin := first.toUTF8 } arguments = .ok ofFirst ∧
      run { surroundings with stdin := second.toUTF8 } arguments = .ok ofSecond ∧
      run { surroundings with stdin := (first ++ second).toUTF8 } arguments = .ok ofBoth ∧
      ofFirst.IsSession options (paletteOf surroundings options) first ∧
      ofSecond.IsSession options (paletteOf surroundings options) second ∧
      ofBoth.IsSession options (paletteOf surroundings options) (first ++ second) ∧
      Outcome.Composes first ofFirst ofSecond ofBoth := by
  have hpalette : (paletteOf surroundings options).Invisible := invisible_ofColor _
  obtain ⟨answers, more, both, hanswers, hmore, hboth, hcomposes⟩ :=
    exists_answers_append hpalette hwhole hlines options
  exact ⟨_, _, _, run_eq_ok_of_answers hasks hanswers, run_eq_ok_of_answers hasks hmore,
    run_eq_ok_of_answers hasks hboth, isSession_ofAnswers hanswers, isSession_ofAnswers hmore,
    isSession_ofAnswers hboth, hcomposes⟩

/-- The help text and two errors, one of them a string left open and the other in
what a backspace has left, and then a number before the end of the session. -/
theorem sessions_compose_of_open_string :
    AsksForPrompt ["--color", "always"] ⟨none, .text, .always, false, false⟩ ∧
      (" .help\t\r\n\"open\n@\x08#\n" = "" ∨
        " .help\t\r\n\"open\n@\x08#\n".toList.getLast? = some '\n') ∧
      (∀ line ∈ Lines.ofChars " .help\t\r\n\"open\n@\x08#\n".toList ++
        Lines.ofChars "1.5\n.exit \n@".toList, line.length ≤ 4294967294) ∧
      ∃ ofFirst ofSecond ofBoth,
        run ⟨fun _ => .error .notFound, " .help\t\r\n\"open\n@\x08#\n".toUTF8, false⟩
          ["--color", "always"] = .ok ofFirst ∧
        run ⟨fun _ => .error .notFound, "1.5\n.exit \n@".toUTF8, false⟩
          ["--color", "always"] = .ok ofSecond ∧
        run ⟨fun _ => .error .notFound,
          (" .help\t\r\n\"open\n@\x08#\n" ++ "1.5\n.exit \n@").toUTF8, false⟩
          ["--color", "always"] = .ok ofBoth ∧
        ofFirst.IsSession ⟨none, .text, .always, false, false⟩ ansi
          " .help\t\r\n\"open\n@\x08#\n" ∧
        ofSecond.IsSession ⟨none, .text, .always, false, false⟩ ansi "1.5\n.exit \n@" ∧
        ofBoth.IsSession ⟨none, .text, .always, false, false⟩ ansi
          (" .help\t\r\n\"open\n@\x08#\n" ++ "1.5\n.exit \n@") ∧
        Outcome.Composes " .help\t\r\n\"open\n@\x08#\n" ofFirst ofSecond ofBoth := by
  have hasks : AsksForPrompt ["--color", "always"] ⟨none, .text, .always, false, false⟩ :=
    ⟨by decide +kernel, rfl⟩
  have hlines : ∀ line ∈ Lines.ofChars " .help\t\r\n\"open\n@\x08#\n".toList ++
      Lines.ofChars "1.5\n.exit \n@".toList, line.length ≤ 4294967294 := by
    decide +kernel
  exact ⟨hasks, Or.inr (by decide), hlines, sessions_compose hasks (Or.inr (by decide)) hlines
    ⟨fun _ => .error .notFound, .empty, false⟩⟩

/-- Without backspaces the lines are those that were typed.  A session writes the
answers to them, up to the first that leaves the prompt.  On two inputs in a row, the
first of them whole lines, it writes what the session on the first writes and then
what that on the second does, unless a line of the first leaves the prompt. -/
theorem typed_sessions_compose
    {arguments : List String} {options : Options} {first second : String}
    (hasks : AsksForPrompt arguments options)
    (hwhole : first = "" ∨ first.toList.getLast? = some '\n')
    (hlines : ∀ line ∈ Lines.ofChars first.toList ++ Lines.ofChars second.toList,
      line.length ≤ 4294967294)
    (hfirst : Backspace.mark ∉ first.toList)
    (hsecond : Backspace.mark ∉ second.toList)
    (surroundings : Surroundings) :
    ∃ ofFirst ofSecond ofBoth,
      run { surroundings with stdin := first.toUTF8 } arguments = .ok ofFirst ∧
      run { surroundings with stdin := second.toUTF8 } arguments = .ok ofSecond ∧
      run { surroundings with stdin := (first ++ second).toUTF8 } arguments = .ok ofBoth ∧
      ofFirst.AnswersLines options (paletteOf surroundings options)
        (Lines.ofChars first.toList) ∧
      ofSecond.AnswersLines options (paletteOf surroundings options)
        (Lines.ofChars second.toList) ∧
      ((∀ line ∈ Lines.ofChars first.toList, ¬ LeavesPrompt line) →
        ofBoth.stdout = ofFirst.stdout ++ ofSecond.stdout ∧
          ofBoth.stderr = ofFirst.stderr ++ ofSecond.stderr) ∧
      ((∃ line ∈ Lines.ofChars first.toList, LeavesPrompt line) → ofBoth = ofFirst) := by
  have hpalette : (paletteOf surroundings options).Invisible := invisible_ofColor _
  obtain ⟨answers, more, both, hanswers, hmore, hboth, hcomposes⟩ :=
    exists_answers_append hpalette hwhole hlines options
  have hstays := hcomposes.stays
  have hleaves := hcomposes.leaves
  have hrun := run_eq_ok_of_answers hasks hanswers
  have hrun' := run_eq_ok_of_answers hasks hmore
  rw [answeredLines, editedLines_eq_ofChars hfirst] at hanswers
  rw [answeredLines, editedLines_eq_ofChars hsecond] at hmore
  rw [editedLines_eq_ofChars hfirst] at hstays hleaves
  exact ⟨_, _, _, hrun, hrun', run_eq_ok_of_answers hasks hboth, ⟨answers, hanswers, rfl⟩,
    ⟨more, hmore, rfl⟩, hstays, hleaves⟩

end Cli
end LoxLexer

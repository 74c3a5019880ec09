import LoxLexer.Cli.Run
import LoxLexer.Proofs.Cli.Presentation
import LoxLexer.Proofs.Report.Erasure
import LoxLexer.Proofs.Source.Bytes
import Mathlib.Data.List.Forall2

/-!
# Runs on a file

How a run on a file ends depends on the file alone.  Its exit code tells whether
the file could be read as text and whether the text has errors, and no option
has a say in that.  The dump depends on the options for dumps, the reports on
the color; and color is nothing but escape sequences, so without these the
reports of any two runs are the same text (`runs_on_file_agree`).
-/

namespace LoxLexer
namespace Cli

open Palette Report

/-! ## The outcome for a file -/

/-- The arguments are accepted and ask for a run on a file. -/
structure AsksForFile (arguments : List String) (name : String) (options : Options) : Prop where
  accepted : Request.ofArguments arguments = .ok (.run options)
  file : options.file = some name

/-- The palette of a run. -/
def paletteOf (surroundings : Surroundings) (options : Options) : Palette :=
  ofColor (options.color.enabled surroundings.terminal)

namespace Outcome

/-- The outcome says that a file cannot be read, and why. -/
structure IsUnreadable (palette : Palette) (name : String) (reason : ReadError)
    (outcome : Outcome) : Prop where
  exit : outcome.exit.code = 66
  stdout : outcome.stdout = ""
  stderr : outcome.stderr =
    failureLine palette ("cannot read '" ++ name ++ "': " ++ reason.message)

/-- The outcome shows a scan of a file: a dump of its tokens, reports of its
errors, and a tally of them if there are any. -/
structure Shows (options : Options) (palette : Palette) (name source : String)
    (result : Scan Log) (outcome : Outcome) : Prop where
  exit : outcome.exit.code = if result.reports.toList = [] then 0 else 65
  stdout : outcome.stdout = if options.quiet then "" else Token.dump options.format result.tokens
  clean : result.reports.toList = [] → outcome.stderr = ""
  faulty : result.reports.toList ≠ [] → ∃ reports,
    List.Forall₂ (fun diagnostic report =>
      ofDiagnostic palette (Page.ofSource source) (diagnostic.inFile name) = .ok report)
        result.reports.toList reports ∧
    outcome.stderr = String.join reports ++
      ("\n" ++ tally palette result.reports.toList.length ++ "\n")

/-- The outcome is what reading a file has called for. -/
structure IsForFile (options : Options) (palette : Palette) (name : String)
    (content : Except ReadError ByteArray) (outcome : Outcome) : Prop where
  exit : outcome.exit.code ∈ [0, 65, 66]
  unreadable : ∀ reason, content = .error reason → outcome.IsUnreadable palette name reason
  noText : ∀ bytes, content = .ok bytes → ¬ bytes.IsValidUTF8 →
    outcome.IsUnreadable palette name .notText
  text : ∀ source : String, content = .ok source.toUTF8 →
    ∃ result, scan source = .ok result ∧ outcome.Shows options palette name source result

end Outcome

/-- A file cannot be read, or its content is not text, or it is a text. -/
theorem content_cases (content : Except ReadError ByteArray) :
    (∃ reason, content.bind decode = .error reason ∧
      (content = .error reason ∨
        ∃ bytes, content = .ok bytes ∧ ¬ bytes.IsValidUTF8 ∧ reason = .notText)) ∨
      ∃ source : String, content = .ok source.toUTF8 := by
  cases content with
  | error reason => exact Or.inl ⟨reason, rfl, Or.inl rfl⟩
  | ok bytes =>
      by_cases hvalid : bytes.IsValidUTF8
      · exact Or.inr ⟨⟨bytes, hvalid⟩, rfl⟩
      · refine Or.inl ⟨.notText, ?_, Or.inr ⟨bytes, rfl, hvalid, rfl⟩⟩
        have hdecode : (Except.ok bytes : Except ReadError ByteArray).bind decode =
            decode bytes := rfl
        rw [hdecode, decode, String.fromUTF8?, dif_neg hvalid]

/-- A scan with no error shows nothing but its dump; with errors there are also
their reports and the tally. -/
theorem Presentation.IsOf.shows
    {options : Options} {palette : Palette} {name source : String} {result : Scan Log}
    {shown : Presentation}
    (hshown : Presentation.IsOf options palette (some name) source result shown) :
    Outcome.Shows options palette name source result
      (if shown.errors = 0 then ⟨.success, shown.dump, shown.reports⟩
        else ⟨.dataError, shown.dump,
          shown.reports ++ "\n" ++ tally palette shown.errors ++ "\n"⟩) := by
  obtain ⟨reports, hreports, hjoin⟩ := hshown.reports
  have herrors : shown.errors = result.reports.toList.length := by
    rw [hshown.errors, Log.errorCount, Log.toList, Array.length_toList]
  by_cases hnone : result.reports.toList = []
  · rw [if_pos (by rw [herrors, hnone, List.length_nil])]
    rw [hnone] at hreports
    cases hreports
    refine ⟨?_, hshown.dump, fun _ => hjoin, fun hsome => absurd hnone hsome⟩
    rw [if_pos hnone]
    rfl
  · have hsome : shown.errors ≠ 0 := by
      rw [herrors]
      exact fun hzero => hnone (List.eq_nil_of_length_eq_zero hzero)
    rw [if_neg hsome]
    refine ⟨?_, hshown.dump, fun hempty => absurd hempty hnone, fun _ => ⟨reports, hreports, ?_⟩⟩
    · rw [if_neg hnone]
      rfl
    · simp only
      rw [hjoin, herrors, String.append_assoc, String.append_assoc, String.append_assoc]

/-- Every file has an outcome, and it is what reading the file calls for. -/
theorem exists_isForFile
    {content : Except ReadError ByteArray}
    (hlength : ∀ source : String, content = .ok source.toUTF8 → source.length ≤ 4294967294)
    (options : Options) (palette : Palette) (name : String) :
    ∃ outcome, Outcome.ofFile options palette name content = .ok outcome ∧
      outcome.IsForFile options palette name content := by
  rcases content_cases content with ⟨reason, hreason, hcontent⟩ | ⟨source, rfl⟩
  · have hunreadable : Outcome.IsUnreadable palette name reason
        ⟨.noInput, "", failureLine palette ("cannot read '" ++ name ++ "': " ++ reason.message)⟩ :=
      ⟨rfl, rfl, rfl⟩
    refine ⟨_, by rw [Outcome.ofFile, hreason], ?_, ?_, ?_, ?_⟩
    · rw [hunreadable.exit]
      decide
    · rintro other rfl
      cases hreason
      exact hunreadable
    · rintro bytes rfl hvalid
      rcases hcontent with hcontent | ⟨_, -, -, rfl⟩
      · cases hcontent
      · exact hunreadable
    · rintro source rfl
      have hdecode : decode source.toUTF8 = .error reason := hreason
      rw [decode_toUTF8] at hdecode
      cases hdecode
  · have hdecode : (Except.ok source.toUTF8 : Except ReadError ByteArray).bind decode =
        .ok source := decode_toUTF8 source
    obtain ⟨result, shown, hshown⟩ :=
      exists_presentation_isOf (fitsWords_of_length_le (hlength source rfl)) options palette
        (some name)
    have hshows := hshown.shows
    refine ⟨_, by rw [Outcome.ofFile, hdecode]; simp only [hshown.presented, Except.map]; rfl,
      ?_, ?_, ?_, ?_⟩
    · rw [hshows.exit]
      split
      · decide
      · decide
    · intro reason hreason
      cases hreason
    · intro bytes hbytes hvalid
      cases hbytes
      exact absurd source.isValidUTF8 hvalid
    · intro other hother
      obtain rfl : other = source := by
        have hequal := congrArg decode (Except.ok.inj hother)
        rw [decode_toUTF8, decode_toUTF8] at hequal
        exact (Except.ok.inj hequal).symm
      exact ⟨result, hshown.scan, hshows⟩

/-! ## Two runs on one file -/

/-- What the options of two runs on one file have a say in, and what not. -/
structure Outcome.Agrees (options settings : Options) (first second : Outcome) : Prop where
  exit : first.exit.code = second.exit.code
  stdout : options.quiet = settings.quiet → options.format = settings.format →
    first.stdout = second.stdout
  quiet : options.quiet = true → first.stdout = ""
  stderr : options.color = settings.color → first.stderr = second.stderr
  erased : erased first.stderr = erased second.stderr

theorem leaves_failureLine
    {palette : Palette}
    (hpalette : palette.Invisible)
    (message : String) :
    Leaves (failureLine palette message).toList
      ("error: ".toList ++ (withoutCodes message.toList ++ "\n".toList)) := by
  have hword : Leaves "error".toList "error".toList := Leaves.self (by decide)
  have hcolon : Leaves ": ".toList ": ".toList := Leaves.self (by decide)
  have hfeed : Leaves "\n".toList "\n".toList := Leaves.self (by decide)
  have hline := (leaves_nil_of_mem hpalette.bold).append
    ((leaves_nil_of_mem hpalette.red).append (hword.append
      ((leaves_nil_of_mem hpalette.reset).append (hcolon.append
        (hfeed.append_any (fun rest => headAvoids_cons_iff.mpr (by decide)) message.toList)))))
  simp only [failureLine, String.toList_append, List.append_assoc, List.nil_append] at hline ⊢
  exact hline

theorem leaves_closing
    {palette : Palette}
    (hpalette : palette.Invisible)
    (count : Nat) :
    Leaves ("\n" ++ tally palette count ++ "\n").toList
      ("\n".toList ++ (("Found " ++ count.repr ++
        (if count = 1 then " error." else " errors.")).toList ++ "\n".toList)) := by
  have hfeed : Leaves "\n".toList "\n".toList := Leaves.self (by decide)
  rw [String.toList_append, String.toList_append, List.append_assoc]
  exact hfeed.append ((leaves_tally hpalette count).append hfeed)

/-- The reports of the same diagnostics leave the same in any two colors. -/
theorem exists_leaves_join
    {palette other : Palette} {page : Page} {name : String} {diagnostics : List Diagnostic}
    {reports others : List String}
    (hpalette : palette.Invisible)
    (hother : other.Invisible)
    (hreports : List.Forall₂ (fun diagnostic report =>
      ofDiagnostic palette page (diagnostic.inFile name) = .ok report) diagnostics reports)
    (hothers : List.Forall₂ (fun diagnostic report =>
      ofDiagnostic other page (diagnostic.inFile name) = .ok report) diagnostics others) :
    ∃ left, Leaves (String.join reports).toList left ∧ Leaves (String.join others).toList left := by
  induction hreports generalizing others with
  | nil =>
      cases hothers
      exact ⟨[], Leaves.nil, Leaves.nil⟩
  | @cons diagnostic report _ _ hreport _ ih =>
      cases hothers with
      | @cons _ answer _ _ hanswer hrest =>
          obtain ⟨back, hback, hbackOther⟩ := ih hrest
          rcases leaves_ofDiagnostic page (diagnostic.inFile name) with
            ⟨fault, hfault⟩ | ⟨front, hfront⟩
          · rw [hfault] at hreport
            cases hreport
          · obtain ⟨first, hfirst, hleaves⟩ := hfront palette hpalette
            obtain ⟨second, hsecond, hleavesOther⟩ := hfront other hother
            obtain rfl : first = report := Except.ok.inj (hfirst.symm.trans hreport)
            obtain rfl : second = answer := Except.ok.inj (hsecond.symm.trans hanswer)
            refine ⟨front ++ back, ?_, ?_⟩
            · rw [String.join_cons, String.toList_append]
              exact hleaves.append hback
            · rw [String.join_cons, String.toList_append]
              exact hleavesOther.append hbackOther

section

variable {options settings : Options} {palette other : Palette} {name source : String}
  {reason : ReadError} {result : Scan Log} {first second : Outcome}

theorem Outcome.IsUnreadable.agrees
    (hpalette : palette.Invisible)
    (hother : other.Invisible)
    (hcolor : options.color = settings.color → palette = other)
    (hfirst : first.IsUnreadable palette name reason)
    (hsecond : second.IsUnreadable other name reason) :
    first.Agrees options settings second where
  exit := hfirst.exit.trans hsecond.exit.symm
  stdout _ _ := hfirst.stdout.trans hsecond.stdout.symm
  quiet _ := hfirst.stdout
  stderr hequal := by
    rw [hfirst.stderr, hsecond.stderr, hcolor hequal]
  erased := by
    rw [hfirst.stderr, hsecond.stderr]
    exact erased_eq_of_leaves (leaves_failureLine hpalette _) (leaves_failureLine hother _)

theorem Outcome.Shows.stderr_eq
    (hfirst : first.Shows options palette name source result)
    (hsecond : second.Shows settings palette name source result) :
    first.stderr = second.stderr := by
  by_cases hnone : result.reports.toList = []
  · rw [hfirst.clean hnone, hsecond.clean hnone]
  · obtain ⟨reports, hreports, hstderr⟩ := hfirst.faulty hnone
    obtain ⟨others, hothers, hother⟩ := hsecond.faulty hnone
    have hunique : Relator.RightUnique fun (diagnostic : Diagnostic) report =>
        ofDiagnostic palette (Page.ofSource source) (diagnostic.inFile name) = .ok report := by
      intro diagnostic report answer hreport hanswer
      exact Except.ok.inj (hreport.symm.trans hanswer)
    rw [hstderr, hother, List.right_unique_forall₂' hunique hreports hothers]

theorem Outcome.Shows.erased_eq
    (hpalette : palette.Invisible)
    (hother : other.Invisible)
    (hfirst : first.Shows options palette name source result)
    (hsecond : second.Shows settings other name source result) :
    erased first.stderr = erased second.stderr := by
  by_cases hnone : result.reports.toList = []
  · rw [hfirst.clean hnone, hsecond.clean hnone]
  · obtain ⟨reports, hreports, hstderr⟩ := hfirst.faulty hnone
    obtain ⟨others, hothers, hotherStderr⟩ := hsecond.faulty hnone
    obtain ⟨left, hleft, hotherLeft⟩ := exists_leaves_join hpalette hother hreports hothers
    rw [hstderr, hotherStderr]
    apply erased_eq_of_leaves
    · rw [String.toList_append]
      exact hleft.append (leaves_closing hpalette _)
    · rw [String.toList_append]
      exact hotherLeft.append (leaves_closing hother _)

theorem Outcome.Shows.agrees
    (hpalette : palette.Invisible)
    (hother : other.Invisible)
    (hcolor : options.color = settings.color → palette = other)
    (hfirst : first.Shows options palette name source result)
    (hsecond : second.Shows settings other name source result) :
    first.Agrees options settings second where
  exit := hfirst.exit.trans hsecond.exit.symm
  stdout hquiet hformat := by
    rw [hfirst.stdout, hsecond.stdout, hquiet, hformat]
  quiet hquiet := by
    rw [hfirst.stdout, if_pos hquiet]
  stderr hequal := by
    obtain rfl := hcolor hequal
    exact hfirst.stderr_eq hsecond
  erased := hfirst.erased_eq hpalette hother hsecond

theorem Outcome.IsForFile.agrees
    {content : Except ReadError ByteArray}
    (hpalette : palette.Invisible)
    (hother : other.Invisible)
    (hcolor : options.color = settings.color → palette = other)
    (hfirst : first.IsForFile options palette name content)
    (hsecond : second.IsForFile settings other name content) :
    first.Agrees options settings second := by
  rcases content_cases content with ⟨reason, -, rfl | ⟨bytes, rfl, hvalid, rfl⟩⟩ | ⟨source, rfl⟩
  · exact (hfirst.unreadable reason rfl).agrees hpalette hother hcolor
      (hsecond.unreadable reason rfl)
  · exact (hfirst.noText bytes rfl hvalid).agrees hpalette hother hcolor
      (hsecond.noText bytes rfl hvalid)
  · obtain ⟨result, hresult, hshows⟩ := hfirst.text source rfl
    obtain ⟨found, hfound, hshowsOther⟩ := hsecond.text source rfl
    obtain rfl : found = result := Except.ok.inj (hfound.symm.trans hresult)
    exact hshows.agrees hpalette hother hcolor hshowsOther

end

/-- Every run on a file ends as the file calls for.  Of two runs on one file, with
any options that the command line accepts, the exit codes are the same; so is the
output, if both want it and in one format; so are the reports, if both want them
in one color, and in any case without their escape sequences. -/
theorem runs_on_file_agree
    {surroundings : Surroundings} {arguments others : List String} {name : String}
    {options settings : Options}
    (hfirst : AsksForFile arguments name options)
    (hsecond : AsksForFile others name settings)
    (hlength : ∀ source : String, surroundings.read name = .ok source.toUTF8 →
      source.length ≤ 4294967294) :
    ∃ first second, run surroundings arguments = .ok first ∧
      run surroundings others = .ok second ∧
      first.IsForFile options (paletteOf surroundings options) name (surroundings.read name) ∧
      second.IsForFile settings (paletteOf surroundings settings) name
        (surroundings.read name) ∧
      first.Agrees options settings second := by
  obtain ⟨first, hofFirst, hisFirst⟩ :=
    exists_isForFile hlength options (paletteOf surroundings options) name
  obtain ⟨second, hofSecond, hisSecond⟩ :=
    exists_isForFile hlength settings (paletteOf surroundings settings) name
  refine ⟨first, second, ?_, ?_, hisFirst, hisSecond, ?_⟩
  · rw [run, hfirst.accepted]
    simp only [respond, runOptions, hfirst.file]
    exact hofFirst
  · rw [run, hsecond.accepted]
    simp only [respond, runOptions, hsecond.file]
    exact hofSecond
  · refine hisFirst.agrees (invisible_ofColor _) (invisible_ofColor _) ?_ hisSecond
    intro hcolor
    rw [hcolor]

/-- A file whose name ends in a fragment of an escape sequence and whose text has
an error, shown in color, and in silence without color. -/
theorem runs_on_file_agree_of_fragment :
    AsksForFile ["--color=always", "\x1b[3"] "\x1b[3"
        ⟨some "\x1b[3", .text, .always, false, false⟩ ∧
      AsksForFile ["-q", "--color", "never", "--format=json", "--", "\x1b[3"] "\x1b[3"
        ⟨some "\x1b[3", .json, .never, true, false⟩ ∧
      (∀ source : String, (Except.ok "1m@".toUTF8 : Except ReadError ByteArray) =
        .ok source.toUTF8 → source.length ≤ 4294967294) ∧
      ∃ first second,
        run ⟨fun _ => .ok "1m@".toUTF8, .empty, false⟩ ["--color=always", "\x1b[3"] =
          .ok first ∧
        run ⟨fun _ => .ok "1m@".toUTF8, .empty, false⟩
          ["-q", "--color", "never", "--format=json", "--", "\x1b[3"] = .ok second ∧
        first.IsForFile ⟨some "\x1b[3", .text, .always, false, false⟩ ansi "\x1b[3"
          (.ok "1m@".toUTF8) ∧
        second.IsForFile ⟨some "\x1b[3", .json, .never, true, false⟩ plain "\x1b[3"
          (.ok "1m@".toUTF8) ∧
        first.Agrees ⟨some "\x1b[3", .text, .always, false, false⟩
          ⟨some "\x1b[3", .json, .never, true, false⟩ second := by
  have hfirst : AsksForFile ["--color=always", "\x1b[3"] "\x1b[3"
      ⟨some "\x1b[3", .text, .always, false, false⟩ := ⟨by decide +kernel, rfl⟩
  have hsecond : AsksForFile ["-q", "--color", "never", "--format=json", "--", "\x1b[3"]
      "\x1b[3" ⟨some "\x1b[3", .json, .never, true, false⟩ := ⟨by decide +kernel, rfl⟩
  have hlength : ∀ source : String, (Except.ok "1m@".toUTF8 : Except ReadError ByteArray) =
      .ok source.toUTF8 → source.length ≤ 4294967294 := by
    intro source hsource
    have hequal := congrArg decode (Except.ok.inj hsource)
    rw [decode_toUTF8, decode_toUTF8] at hequal
    obtain rfl := Except.ok.inj hequal
    decide
  exact ⟨hfirst, hsecond, hlength, @runs_on_file_agree
    ⟨fun _ => .ok "1m@".toUTF8, .empty, false⟩ _ _ _ _ _ hfirst hsecond hlength⟩

end Cli
end LoxLexer

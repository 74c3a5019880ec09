import LoxLexer.Cli.FileTree
import LoxLexer.Cli.Options
import LoxLexer.Report.Basic
import LoxLexer.Scan.Basic

/-!
# Outcomes

A run of the program ends with an exit code and what it has written to its two
outputs.  Presenting a source is the part that runs on a file and runs at a
prompt share: the dump of its tokens, and the reports of its errors.
-/

namespace LoxLexer
namespace Cli

/-- The exit codes. -/
inductive Exit where
  | success
  /-- The arguments are wrong. -/
  | usage
  /-- The source has errors. -/
  | dataError
  /-- The file cannot be read. -/
  | noInput
  /-- The program itself cannot go on. -/
  | software
deriving DecidableEq

/-- The number of an exit code. -/
def Exit.code : Exit → Nat
  | .success => 0
  | .usage => 64
  | .dataError => 65
  | .noInput => 66
  | .software => 70

/-- How a run has ended, and what it has written. -/
structure Outcome where
  exit : Exit
  stdout : String
  stderr : String
deriving DecidableEq

/-- The line that tells of a failure of the program. -/
def failureLine (palette : Palette) (message : String) : String :=
  palette.bold ++ palette.red ++ "error" ++ palette.reset ++ ": " ++ message ++ "\n"

/-- What is shown of a source. -/
structure Presentation where
  /-- The dump of the tokens, unless only errors are wanted. -/
  dump : String
  /-- The reports of the errors. -/
  reports : String
  /-- The number of errors. -/
  errors : Nat
deriving DecidableEq

/-- The diagnostic with a file, if there is one. -/
def attach (file : Option String) (diagnostic : Diagnostic) : Diagnostic :=
  match file with
  | none => diagnostic
  | some name => diagnostic.inFile name

/-- The presentation of a source. -/
def Presentation.ofSource (options : Options) (palette : Palette) (file : Option String)
    (source : String) : Except Fault Presentation := do
  let scan ← scan source
  let page := Page.ofSource source
  let reports ← scan.reports.toList.mapM fun diagnostic =>
    Report.ofDiagnostic palette page (attach file diagnostic)
  return {
    dump := if options.quiet then "" else Token.dump options.format scan.tokens
    reports := String.join reports
    errors := scan.reports.errorCount }

/-- The outcome for a file, given its name and what reading it has given. -/
def Outcome.ofFile (options : Options) (palette : Palette) (name : String)
    (content : Except ReadError ByteArray) : Except Fault Outcome :=
  match content.bind decode with
  | .error reason =>
    .ok ⟨.noInput, "",
      failureLine palette ("cannot read '" ++ name ++ "': " ++ reason.message)⟩
  | .ok source =>
    (Presentation.ofSource options palette (some name) source).map fun shown =>
      if shown.errors = 0 then
        ⟨.success, shown.dump, shown.reports⟩
      else
        ⟨.dataError, shown.dump,
          shown.reports ++ "\n" ++ Report.tally palette shown.errors ++ "\n"⟩

end Cli
end LoxLexer

import LoxLexer.Cli.Help
import LoxLexer.Cli.Outcome
import LoxLexer.Text.Backspace
import LoxLexer.Text.Blank

/-!
# The prompt

Without a file the program takes its input line by line.  A line is a command
or a source; each source is presented by itself, and its errors end nothing.
The prompt is left by a command, at the end of the input, or at a line that is
not text.
-/

namespace LoxLexer
namespace Cli

/-- What a line at the prompt asks for. -/
inductive PromptLine where
  | leave
  | help
  | source (text : String)
deriving DecidableEq

namespace PromptLine

/-- A line as it was meant, after its backspaces.  Blanks around a command do
not count. -/
def ofTyped (typed : List Char) : PromptLine :=
  let line := Backspace.apply typed
  let word := String.ofList (Blank.trim line)
  if word = ".exit" ∨ word = ".quit" then .leave
  else if word = ".help" then .help
  else .source (String.ofList line)

end PromptLine

/-- What the prompt writes for a line that does not leave it: to the output,
and to the error output. -/
def answerLine (options : Options) (palette : Palette) :
    PromptLine → Except Fault (String × String)
  | .leave => .ok ("", "")
  | .help => .ok (promptHelp, "")
  | .source text =>
    (Presentation.ofSource options palette none text).map fun shown =>
      (shown.dump, shown.reports)

/-- The outcome of the prompt for the lines that remain, after what has been
written already. -/
def Outcome.ofLines (options : Options) (palette : Palette) (stdout stderr : String) :
    List (List UInt8) → Except Fault Outcome
  | [] => .ok ⟨.success, stdout, stderr⟩
  | line :: others =>
    match decode ⟨line.toArray⟩ with
    | .error reason =>
      .ok ⟨.software, stdout,
        stderr ++ failureLine palette ("line editor failed: " ++ reason.message)⟩
    | .ok typed =>
      match PromptLine.ofTyped typed.toList with
      | .leave => .ok ⟨.success, stdout, stderr⟩
      | asked =>
        match answerLine options palette asked with
        | .error fault => .error fault
        | .ok (output, reports) =>
          Outcome.ofLines options palette (stdout ++ output) (stderr ++ reports) others

/-- The outcome of the prompt for an input. -/
def Outcome.ofInput (options : Options) (palette : Palette) (input : ByteArray) :
    Except Fault Outcome :=
  Outcome.ofLines options palette "" "" (Lines.ofBytes input.toList)

end Cli
end LoxLexer

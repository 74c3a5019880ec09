import LoxLexer.Cli.Prompt

/-!
# Runs

A run of the program is a function of its arguments, of what reading files
gives, of its input, and of whether its error output is a terminal.
-/

namespace LoxLexer
namespace Cli

/-- What a run depends on besides its arguments. -/
structure Surroundings where
  /-- What reading a file by its name gives. -/
  read : String → Except ReadError ByteArray
  /-- The whole input. -/
  stdin : ByteArray
  /-- Whether the error output is a terminal. -/
  terminal : Bool

/-- The outcome of a run with the given options. -/
def runOptions (surroundings : Surroundings) (options : Options) : Except Fault Outcome :=
  let palette := Palette.ofColor (options.color.enabled surroundings.terminal)
  match options.file with
  | some name => Outcome.ofFile options palette name (surroundings.read name)
  | none => Outcome.ofInput options palette surroundings.stdin

/-- The outcome of a request. -/
def respond (surroundings : Surroundings) : Request → Except Fault Outcome
  | .help long => .ok ⟨.success, if long then longHelp else shortHelp, ""⟩
  | .version => .ok ⟨.success, versionText, ""⟩
  | .run options => runOptions surroundings options

/-- The outcome of a run of the program. -/
def run (surroundings : Surroundings) (arguments : List String) : Except Fault Outcome :=
  match Request.ofArguments arguments with
  | .error problem => .ok ⟨.usage, "", "error: " ++ problem.message ++ "\n"⟩
  | .ok request => respond surroundings request

end Cli
end LoxLexer

import LoxLexer.Cli.Run

/-!
# The program

The outer layer: it gathers what a run depends on, and writes what the run
gives.  A file is read only if the arguments name one, and the input only if
they do not.
-/

namespace LoxLexer
namespace Cli

/-- What reading a file of the system gives. -/
def readFile (name : String) : IO (Except ReadError ByteArray) := do
  try
    return .ok (← IO.FS.readBinFile name)
  catch problem =>
    match problem with
    | .noFileOrDirectory .. => return .error .notFound
    | .inappropriateType _ code _ =>
      return .error (if code = 21 then .isDirectory else .notDirectory)
    | .permissionDenied .. => return .error (.other "Permission denied (os error 13)")
    | _ => return .error (.other (toString problem))

end Cli
end LoxLexer

open LoxLexer LoxLexer.Cli in
/-- The program. -/
def main (arguments : List String) : IO UInt32 := do
  let output ← IO.getStdout
  let errors ← IO.getStderr
  let terminal ← errors.isTty
  let nothing : Surroundings := ⟨fun _ => .error .notFound, .empty, terminal⟩
  let surroundings ←
    match Request.ofArguments arguments with
    | .ok (.run ⟨some name, _, _, _, _⟩) => do
      let content ← readFile name
      pure { nothing with read := fun _ => content }
    | .ok (.run ⟨none, _, _, _, _⟩) => do
      pure { nothing with stdin := ← (← IO.getStdin).readBinToEnd }
    | _ => pure nothing
  match run surroundings arguments with
  | .error fault =>
    errors.putStrLn fault.message
    return 101
  | .ok outcome =>
    output.putStr outcome.stdout
    output.flush
    errors.putStr outcome.stderr
    return UInt32.ofNat outcome.exit.code

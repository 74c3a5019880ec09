import LoxLexer.Token.Kind
import LoxLexer.Word

/-!
# Events of a scan

A scan tells what it does as it does it: one event for each token it adds, one
for each error it reports, and one at the end with the totals.
-/

namespace LoxLexer

/-- How detailed an event is. -/
inductive Level where
  | trace
  | debug
deriving DecidableEq

/-- The name of a level. -/
def Level.name : Level → String
  | .trace => "TRACE"
  | .debug => "DEBUG"

/-- What a scan tells about itself. -/
inductive Event where
  | token (kind : Kind) (lexeme : String) (line : Word)
  | lexicalError (line code : Word)
  | finished (tokens errors : Nat) (lines : Word)
deriving DecidableEq

namespace Event

/-- The level of an event. -/
def level : Event → Level
  | .token .. => .trace
  | .lexicalError .. => .debug
  | .finished .. => .debug

/-- The message of an event. -/
def message : Event → String
  | .token .. => "token"
  | .lexicalError .. => "lexical error"
  | .finished .. => "scan finished"

end Event
end LoxLexer

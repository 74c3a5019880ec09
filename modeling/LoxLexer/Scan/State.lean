import LoxLexer.Diagnostic.Sink
import LoxLexer.Lexeme.First
import LoxLexer.Scan.Event

/-!
# Scan states

A scan goes through its source lexeme by lexeme.  Its state holds where the
present lexeme starts and how far the source has been read, the line of either
place, and what has been found: tokens, errors, and the events that tell of
both.  Errors are handed to a sink at once and only counted here.

Places are counted in naturals and become words when a token or an error is
made; the line is a word throughout.
-/

namespace LoxLexer
namespace Scan

/-- How far a scan has come, and what it has found. -/
structure State (σ : Type) where
  /-- The offset at which the present lexeme starts. -/
  start : Nat
  /-- The line on which the present lexeme starts. -/
  startLine : Word
  /-- The offset of the next character. -/
  current : Nat
  /-- The line of the next character. -/
  line : Word
  tokens : Array Token
  /-- The number of errors reported. -/
  errors : Nat
  /-- The state of the sink. -/
  reports : σ
  events : Array Event

namespace State

variable {σ : Type}

/-- The state before the first character. -/
def initial (reports : σ) : State σ :=
  ⟨0, 1, 0, 1, #[], 0, reports, #[]⟩

/-- The state with the present lexeme starting at the next character. -/
def marked (state : State σ) : State σ :=
  { state with start := state.current, startLine := state.line }

/-- The state past a lexeme. -/
def past (state : State σ) (lexeme : Lexeme) : Except Fault (State σ) :=
  (Word.advance state.line lexeme.lineFeeds).map fun line =>
    { state with current := state.current + lexeme.length, line := line }

/-- The span of the present lexeme, up to the next character. -/
def span (state : State σ) : Except Fault Span :=
  Span.between (Word.ofCount state.start) (Word.ofCount state.current)

/-- The state with one more token. -/
def addToken (state : State σ) (token : Token) : State σ :=
  { state with
    tokens := state.tokens.push token
    events := state.events.push (.token token.kind token.lexeme token.line) }

/-- The state with one more error. -/
def addError (sink : Sink σ) (state : State σ) (diagnostic : Diagnostic) : State σ :=
  { state with
    errors := state.errors + 1
    reports := sink.accept state.reports diagnostic
    events := state.events.push (.lexicalError diagnostic.line diagnostic.code) }

/-- The state with what the present lexeme means. -/
def record (sink : Sink σ) (state : State σ) (lexeme : Lexeme) : Except Fault (State σ) :=
  match lexeme.meaning with
  | .nothing => .ok state
  | .token kind literal =>
    state.span.map fun span =>
      state.addToken ⟨kind, String.ofList lexeme.text, literal, state.startLine, span⟩
  | .error template arguments =>
    state.span.map fun span =>
      addError sink state
        ((Diagnostic.ofTemplate state.startLine template arguments).spanning span)

/-- The state after the present lexeme: past it, and with what it means. -/
def read (sink : Sink σ) (state : State σ) (lexeme : Lexeme) : Except Fault (State σ) :=
  match state.past lexeme with
  | .error fault => .error fault
  | .ok moved => moved.record sink lexeme

/-- The state after all that remains of a source. -/
def readAll (sink : Sink σ) (state : State σ) (source : List Char) :
    Except Fault (State σ) :=
  match source with
  | [] => .ok state
  | c :: others =>
    match state.marked.read sink (Lexeme.first c others).1 with
    | .error fault => .error fault
    | .ok next => readAll sink next (Lexeme.first c others).2
termination_by source.length
decreasing_by exact Lexeme.rest_length_lt c others

end State
end Scan
end LoxLexer

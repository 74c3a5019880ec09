import LoxLexer.Diagnostic.Log
import LoxLexer.Scan.State

/-!
# Scans

A scan turns a source into tokens, the last of which is the end of the input.
Errors do not stop it: each goes to a sink, and the scan goes on after the
lexeme in error.  The usual sink is a log.
-/

namespace LoxLexer

/-- What a scan of a whole source has given. -/
structure Scan (σ : Type) where
  /-- The tokens in order, the end of the input last. -/
  tokens : List Token
  /-- The state of the sink after all errors. -/
  reports : σ
  /-- The events in order, the totals last. -/
  events : List Event

namespace Scan

variable {σ : Type}

/-- The scan that a final state makes. -/
def ofState (state : State σ) : Scan σ :=
  let tokens := state.tokens.push
    (Token.endOfInput state.line (Word.ofCount state.current))
  { tokens := tokens.toList
    reports := state.reports
    events := (state.events.push
      (.finished tokens.size state.errors state.line)).toList }

/-- The scan of a text, its errors going to a sink in the given state. -/
def ofChars (sink : Sink σ) (reports : σ) (source : List Char) : Except Fault (Scan σ) :=
  ((State.initial reports).readAll sink source).map ofState

end Scan

/-- The scan of a source, its errors going to a sink in the given state. -/
def scanInto {σ : Type} (sink : Sink σ) (reports : σ) (source : String) :
    Except Fault (Scan σ) :=
  Scan.ofChars sink reports source.toList

/-- The scan of a source with a log of its errors. -/
def scan (source : String) : Except Fault (Scan Log) :=
  scanInto Log.sink Log.empty source

end LoxLexer

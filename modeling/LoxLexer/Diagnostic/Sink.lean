import LoxLexer.Diagnostic.Basic

/-!
# Sinks

A sink takes the errors of a scan as they are found.  It has a state and two
ways of being told: with a whole diagnostic, or with a line and a message only.
A sink that knows the second way alone is told of a diagnostic through it, and
the file, the span and the code are lost.
-/

namespace LoxLexer

/-- A taker of errors with states in `σ`. -/
structure Sink (σ : Type) where
  /-- The state after a line and a message. -/
  report : σ → Word → String → σ
  /-- The state after a diagnostic. -/
  accept : σ → Diagnostic → σ

namespace Sink

/-- The sink that is told of every error by its line and message. -/
def ofReport {σ : Type} (report : σ → Word → String → σ) : Sink σ where
  report := report
  accept state diagnostic := report state diagnostic.line diagnostic.message

/-- The sink that keeps lines and messages in order. -/
def pairs : Sink (Array (Word × String)) :=
  ofReport fun kept line message => kept.push (line, message)

end Sink
end LoxLexer

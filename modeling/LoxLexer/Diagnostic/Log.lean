import LoxLexer.Diagnostic.Sink

/-!
# Logs

A log keeps diagnostics in the order in which they came.  It is a sink that
keeps a diagnostic whole, and makes one of a line and a message.
-/

namespace LoxLexer

/-- Diagnostics in the order in which they came. -/
structure Log where
  entries : Array Diagnostic

namespace Log

/-- The log of nothing. -/
def empty : Log := ⟨#[]⟩

/-- The log with one more diagnostic. -/
def add (log : Log) (diagnostic : Diagnostic) : Log :=
  ⟨log.entries.push diagnostic⟩

/-- The log with the diagnostic of a line and a message. -/
def report (log : Log) (line : Word) (message : String) : Log :=
  log.add (Diagnostic.ofText line message)

/-- The log told of a diagnostic by its line and message. -/
def forward (log : Log) (diagnostic : Diagnostic) : Log :=
  (Sink.ofReport report).accept log diagnostic

/-- The number of diagnostics. -/
def size (log : Log) : Nat := log.entries.size

/-- The number of errors; every diagnostic is one. -/
def errorCount (log : Log) : Nat := log.entries.size

/-- Whether there is an error. -/
def hasErrors (log : Log) : Bool := !log.entries.isEmpty

/-- Whether there is nothing in the log. -/
def isEmpty (log : Log) : Bool := log.entries.isEmpty

/-- The diagnostics in order. -/
def toList (log : Log) : List Diagnostic := log.entries.toList

/-- The latest diagnostic. -/
def last? (log : Log) : Option Diagnostic := log.entries.back?

/-- A log as a sink. -/
def sink : Sink Log where
  report := report
  accept := add

/-- The empty log holds nothing. -/
theorem toList_empty : empty.toList = [] := rfl

/-- A diagnostic is added at the end. -/
theorem toList_add
    (log : Log) (diagnostic : Diagnostic) :
    (log.add diagnostic).toList = log.toList ++ [diagnostic] := by
  simp [toList, add]

end Log
end LoxLexer

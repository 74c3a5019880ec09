import LoxLexer.Scan.Basic

/-!
# Histories of a log

A log can serve many scans, be told of errors by other means in between, and be
emptied.  A history is a list of such steps, played on a log one after the
other; each step may have something to say besides the log it leaves.
-/

namespace LoxLexer
namespace Log

/-- What can be done to a log. -/
inductive Step where
  /-- Tell of a line and a message. -/
  | report (line : Word) (message : String)
  /-- Tell of a diagnostic, as a scan does. -/
  | accept (diagnostic : Diagnostic)
  /-- Add a diagnostic. -/
  | add (diagnostic : Diagnostic)
  /-- Scan a source into the log. -/
  | scan (source : String)
  /-- Tell of a diagnostic by its line and message only. -/
  | forward (diagnostic : Diagnostic)
  /-- Take all diagnostics out. -/
  | drain

/-- What a step says besides the log it leaves. -/
inductive Reply where
  | nothing
  | scanned (tokens : List Token)
  | drained (diagnostics : List Diagnostic)

/-- The log after a step, and what the step says. -/
def play (log : Log) : Step → Except Fault (Log × Reply)
  | .report line message => .ok (log.report line message, .nothing)
  | .accept diagnostic => .ok (sink.accept log diagnostic, .nothing)
  | .add diagnostic => .ok (log.add diagnostic, .nothing)
  | .scan source =>
    (scanInto sink log source).map fun scan => (scan.reports, .scanned scan.tokens)
  | .forward diagnostic => .ok (log.forward diagnostic, .nothing)
  | .drain => .ok (empty, .drained log.toList)

/-- The log after each step of a history, with what the step says. -/
def playAll (log : Log) : List Step → Except Fault (List (Log × Reply))
  | [] => .ok []
  | step :: others => do
    let (next, reply) ← log.play step
    let later ← playAll next others
    return (next, reply) :: later

end Log
end LoxLexer

import LoxLexer.Proofs.Scan.Run

/-!
# Delivery of errors

A scan hands its errors to a sink and asks nothing of it in return, so the sink
has no say in what is scanned.  Into any sink a source gives the tokens and the
events that it gives into an empty log, and the sink is told of the diagnostics
in that log, in order (`scanInto_eq_map`).

No bound on the source is needed for this: a scan faults into one sink exactly
when it faults into every other.
-/

namespace LoxLexer
namespace Scan

variable {σ : Type}

/-- The state of a sink after the diagnostics of a log. -/
def told (sink : Sink σ) (reports : σ) (log : Log) : σ :=
  log.toList.foldl sink.accept reports

theorem told_add
    (sink : Sink σ) (reports : σ) (log : Log) (diagnostic : Diagnostic) :
    told sink reports (log.add diagnostic) = sink.accept (told sink reports log) diagnostic := by
  rw [told, Log.toList_add, List.foldl_append]
  rfl

/-- A log told of the diagnostics of another one has them after its own. -/
theorem toList_told (log other : Log) :
    (told Log.sink log other).toList = log.toList ++ other.toList :=
  foldl_accept_toList log other.toList

namespace State

/-- The state of a scan into another sink that has been told of the same
diagnostics. -/
def delivered (sink : Sink σ) (reports : σ) (state : State Log) : State σ where
  start := state.start
  startLine := state.startLine
  current := state.current
  line := state.line
  tokens := state.tokens
  errors := state.errors
  reports := told sink reports state.reports
  events := state.events

variable (sink : Sink σ) (reports : σ) (state : State Log)

/-! ## One step -/

theorem past_delivered (lexeme : Lexeme) :
    (state.delivered sink reports).past lexeme =
      (state.past lexeme).map (delivered sink reports) := by
  have hline : (state.delivered sink reports).line = state.line := rfl
  rw [past, past, hline]
  cases Word.advance state.line lexeme.lineFeeds with
  | error fault => rfl
  | ok line => rfl

/-- An error is reported to the sink as it is to the log. -/
theorem addError_delivered (diagnostic : Diagnostic) :
    addError sink (state.delivered sink reports) diagnostic =
      (addError Log.sink state diagnostic).delivered sink reports := by
  have htold := told_add sink reports state.reports diagnostic
  simp only [addError, delivered, Log.sink, htold]

theorem record_delivered (lexeme : Lexeme) :
    (state.delivered sink reports).record sink lexeme =
      (state.record Log.sink lexeme).map (delivered sink reports) := by
  have hspan : (state.delivered sink reports).span = state.span := rfl
  unfold record
  cases lexeme.meaning with
  | nothing => rfl
  | token kind literal =>
      simp only [hspan]
      cases state.span with
      | error fault => rfl
      | ok span => rfl
  | error template arguments =>
      simp only [hspan]
      cases state.span with
      | error fault => rfl
      | ok span => exact congrArg Except.ok (addError_delivered sink reports state _)

theorem read_delivered (lexeme : Lexeme) :
    (state.delivered sink reports).read sink lexeme =
      (state.read Log.sink lexeme).map (delivered sink reports) := by
  rw [read, read, past_delivered]
  cases state.past lexeme with
  | error fault => rfl
  | ok moved => exact record_delivered sink reports moved lexeme

/-! ## A whole run -/

/-- A run into a sink goes as the run into a log. -/
theorem readAll_delivered (source : List Char) :
    (state.delivered sink reports).readAll sink source =
      (state.readAll Log.sink source).map (delivered sink reports) := by
  induction source using Lexeme.cut.induct generalizing state with
  | case1 =>
      rw [readAll, readAll]
      rfl
  | case2 c others ih =>
      have hread := read_delivered sink reports state.marked (Lexeme.first c others).1
      have hmarked : (state.delivered sink reports).marked =
          state.marked.delivered sink reports := rfl
      rw [readAll, readAll, hmarked, hread]
      cases state.marked.read Log.sink (Lexeme.first c others).1 with
      | error fault => rfl
      | ok next => exact ih next

end State

/-- What a scan into another sink gives. -/
def delivered (sink : Sink σ) (reports : σ) (scan : Scan Log) : Scan σ where
  tokens := scan.tokens
  reports := told sink reports scan.reports
  events := scan.events

end Scan

/-- A sink has no say in a scan: it is told of the diagnostics that an empty log
would hold, and the tokens and events are the same, as is a fault. -/
theorem scanInto_eq_map
    {σ : Type}
    (sink : Sink σ) (reports : σ) (source : String) :
    scanInto sink reports source = (scan source).map (Scan.delivered sink reports) := by
  have hinitial : Scan.State.initial reports =
      (Scan.State.initial Log.empty).delivered sink reports := rfl
  rw [scanInto, scan, scanInto, Scan.ofChars, Scan.ofChars, hinitial,
    Scan.State.readAll_delivered]
  cases (Scan.State.initial Log.empty).readAll Log.sink source.toList with
  | error fault => rfl
  | ok final => rfl

end LoxLexer

import LoxLexer.Proofs.Scan.Placed
import LoxLexer.Scan.Basic

/-!
# Runs of a scan

One step of a scan reads one lexeme: it moves on by the lexeme's characters and
line feeds, and adds what the placed lexeme contributes.  A whole run reads the
cut of the source.  As long as all offsets and lines are words no step faults,
so the scan of a text is given outright by its placed lexemes
(`exists_scan_eq_ok`); a scan into any sink hands it the diagnostics of the text, in
order (`exists_ofChars_eq_ok`).
-/

namespace LoxLexer
namespace Scan

variable {σ : Type} {sink : Sink σ}

/-- The state of a scan that has read a text. -/
structure State.At (state : State σ) (before : List Char) : Prop where
  current : state.current = before.length
  line : state.line.toNat = 1 + before.count '\n'

/-- What a scan adds by reading placed lexemes. -/
structure State.Reads (sink : Sink σ) (placed : List Placed) (old new : State σ) : Prop where
  tokens : new.tokens.toList = old.tokens.toList ++ placed.filterMap Placed.token?
  errors : new.errors = old.errors + (placed.filterMap Placed.diagnostic?).length
  reports :
    new.reports = (placed.filterMap Placed.diagnostic?).foldl sink.accept old.reports
  events : new.events.toList = old.events.toList ++ placed.filterMap Placed.event?

namespace State

theorem at_initial (reports : σ) : At (initial reports) [] :=
  ⟨rfl, rfl⟩

theorem reads_nil (state : State σ) : Reads sink [] state state := by
  constructor <;> simp

theorem Reads.append
    {front back : List Placed} {old middle new : State σ}
    (hfront : Reads sink front old middle)
    (hback : Reads sink back middle new) :
    Reads sink (front ++ back) old new where
  tokens := by
    rw [hback.tokens, hfront.tokens, List.filterMap_append, List.append_assoc]
  errors := by
    rw [hback.errors, hfront.errors, List.filterMap_append, List.length_append, Nat.add_assoc]
  reports := by
    rw [hback.reports, hfront.reports, List.filterMap_append, List.foldl_append]
  events := by
    rw [hback.events, hfront.events, List.filterMap_append, List.append_assoc]

/-! ## One step -/

/-- The state past a lexeme, with nothing added. -/
def moved (state : State σ) (lexeme : Lexeme) : State σ :=
  { state.marked with
    current := state.current + lexeme.length
    line := Word.ofCount (state.line.toNat + lexeme.lineFeeds) }

theorem line_lt_size_of_fitsWords
    {before text : List Char}
    (hfits : FitsWords (before ++ text)) :
    1 + before.count '\n' + text.count '\n' < UInt32.size := by
  have hcount : (before ++ text).count '\n' ≤ (before ++ text).length := List.count_le_length
  rw [List.count_append] at hcount
  rw [FitsWords] at hfits
  omega

theorem past_marked_eq_ok
    {state : State σ} {before : List Char} {lexeme : Lexeme}
    (hat : state.At before)
    (hvalid : lexeme.Valid)
    (hfits : FitsWords (before ++ lexeme.text)) :
    state.marked.past lexeme = .ok (state.moved lexeme) := by
  have hline := line_lt_size_of_fitsWords hfits
  rw [← hat.line, ← Lexeme.lineFeeds_eq_count hvalid] at hline
  rw [past, marked, Word.advance_eq_ok hline]
  rfl

theorem at_moved
    {state : State σ} {before : List Char} {lexeme : Lexeme}
    (hat : state.At before)
    (hvalid : lexeme.Valid)
    (hfits : FitsWords (before ++ lexeme.text)) :
    (state.moved lexeme).At (before ++ lexeme.text) where
  current := by
    rw [moved, List.length_append, ← hat.current]
    rfl
  line := by
    have hline := line_lt_size_of_fitsWords hfits
    rw [moved, Lexeme.lineFeeds_eq_count hvalid, hat.line, Word.toNat_ofCount hline,
      List.count_append, Nat.add_assoc]

/-- The span of a lexeme just read is that of the placed lexeme. -/
theorem span_moved
    {state : State σ} {before : List Char} {lexeme : Lexeme}
    (hat : state.At before)
    (hfits : FitsWords (before ++ lexeme.text)) :
    (state.moved lexeme).span = .ok (Placed.mk before lexeme).span := by
  have hstart := (hfits.mono (List.prefix_append _ _)).toNat_length
  have hstop := hfits.toNat_length
  rw [List.length_append] at hstop
  rw [FitsWords, List.length_append] at hfits
  have hle : Word.ofCount before.length ≤
      Word.ofCount (before.length + lexeme.text.length) := by
    rw [UInt32.le_iff_toNat_le, hstart, hstop]
    omega
  have hsub : Word.ofCount (before.length + lexeme.text.length) -
      Word.ofCount before.length = Word.ofCount lexeme.text.length := by
    apply UInt32.toNat_inj.mp
    rw [UInt32.toNat_sub_of_le _ _ hle, hstart, hstop, Word.toNat_ofCount (by omega)]
    omega
  simp only [span, moved, marked, hat.current, Lexeme.length]
  rw [Span.between_eq_ok hle, hsub]
  rfl

/-- The line of a lexeme just read is that of the placed lexeme. -/
theorem startLine_moved
    {state : State σ} {before : List Char}
    (hat : state.At before)
    (lexeme : Lexeme) :
    (state.moved lexeme).startLine = Word.ofCount (Placed.mk before lexeme).line := by
  have hword : Word.ofCount state.line.toNat = state.line := by
    rw [Word.ofCount, UInt32.ofNat_toNat]
  rw [Placed.line, ← hat.line, hword]
  rfl

/-- What a step leaves besides what it adds. -/
structure Steps (sink : Sink σ) (before : List Char) (lexeme : Lexeme)
    (old new : State σ) : Prop where
  start : new.start = old.current
  startLine : new.startLine = old.line
  moves : new.At (before ++ lexeme.text)
  reads : Reads sink [⟨before, lexeme⟩] old new

/-- One step reads one lexeme. -/
theorem exists_read_eq_ok
    {state : State σ} {before : List Char} {lexeme : Lexeme}
    (sink : Sink σ)
    (hat : state.At before)
    (hvalid : lexeme.Valid)
    (hfits : FitsWords (before ++ lexeme.text)) :
    ∃ next, state.marked.read sink lexeme = .ok next ∧
      Steps sink before lexeme state next := by
  have hmoved := at_moved hat hvalid hfits
  have hspan := span_moved hat hfits
  have hline := startLine_moved hat lexeme
  rw [read, past_marked_eq_ok hat hvalid hfits]
  unfold record
  cases hmeaning : lexeme.meaning with
  | nothing =>
      refine ⟨_, rfl, rfl, rfl, hmoved, ?_⟩
      constructor <;> simp [moved, marked, Placed.token?, Placed.diagnostic?, Placed.event?,
        hmeaning]
  | token kind literal =>
      simp only [hspan]
      refine ⟨_, rfl, rfl, rfl, ⟨hmoved.current, hmoved.line⟩, ?_⟩
      constructor <;> simp [addToken, moved, marked, Placed.token?, Placed.diagnostic?,
        Placed.event?, hmeaning, ← hline]
  | error template arguments =>
      simp only [hspan]
      refine ⟨_, rfl, rfl, rfl, ⟨hmoved.current, hmoved.line⟩, ?_⟩
      constructor <;> simp [addError, moved, marked, Placed.token?, Placed.diagnostic?,
        Placed.event?, Diagnostic.spanning, Diagnostic.ofTemplate, hmeaning, ← hline]

/-! ## A whole run -/

/-- A run from a state that has read a text reads the cut of what remains. -/
theorem exists_readAll_eq_ok
    (sink : Sink σ)
    {state : State σ} {before source : List Char}
    (hat : state.At before)
    (hfits : FitsWords (before ++ source)) :
    ∃ final, state.readAll sink source = .ok final ∧
      final.At (before ++ source) ∧
      Reads sink (place before (Lexeme.cut source)) state final := by
  -- `At` carries the offset and the line from one lexeme to the next
  induction source using Lexeme.cut.induct generalizing state before with
  | case1 =>
      refine ⟨state, ?_, ?_, ?_⟩
      · rw [readAll]
      · rwa [List.append_nil]
      · rw [Lexeme.cut_nil]
        exact reads_nil state
  | case2 c others ih =>
      have htext := Lexeme.text_append_rest c others
      rw [← htext, ← List.append_assoc] at hfits
      have hfirst := hfits.mono (List.prefix_append _ _)
      obtain ⟨next, hread, hsteps⟩ :=
        exists_read_eq_ok sink hat (Lexeme.first_valid c others) hfirst
      obtain ⟨final, hfinal, hend, hreads⟩ := ih hsteps.moves hfits
      refine ⟨final, ?_, ?_, ?_⟩
      · rw [readAll, hread]
        exact hfinal
      · rw [← htext, ← List.append_assoc]
        exact hend
      · rw [Lexeme.cut_cons]
        exact hsteps.reads.append hreads

end State

/-- A scan of a text whose offsets and lines are words gives its tokens, hands
its diagnostics to the sink in order, and tells of both. -/
theorem exists_ofChars_eq_ok
    (sink : Sink σ) (reports : σ) {source : List Char}
    (hfits : FitsWords source) :
    ∃ scan, ofChars sink reports source = .ok scan ∧
      scan.tokens = tokensOf source ∧
      scan.reports = (diagnosticsOf source).foldl sink.accept reports ∧
      scan.events = (placedOf source).filterMap Placed.event? ++
        [.finished (tokensOf source).length (diagnosticsOf source).length
          (Word.ofCount (1 + source.count '\n'))] := by
  obtain ⟨final, hfinal, hend, hreads⟩ :=
    State.exists_readAll_eq_ok sink (State.at_initial reports) hfits
  have hline : final.line = Word.ofCount (1 + source.count '\n') := by
    rw [← List.nil_append source, ← hend.line, Word.ofCount, UInt32.ofNat_toNat]
  have hcurrent : final.current = source.length := hend.current
  have htokens : (final.tokens.push
      (Token.endOfInput final.line (Word.ofCount final.current))).toList =
        tokensOf source := by
    rw [Array.toList_push, hreads.tokens, hline, hcurrent]
    rfl
  have hsize := congrArg List.length htokens
  rw [Array.length_toList, Array.size_push] at hsize
  refine ⟨ofState final, ?_, htokens, hreads.reports, ?_⟩
  · rw [ofChars, hfinal]
    rfl
  · simp only [ofState, Array.toList_push, Array.size_push, hreads.events, hreads.errors]
    rw [hsize, hline]
    simp [State.initial, diagnosticsOf, diagnosticsFrom, placedOf]

theorem foldl_accept_toList
    (log : Log) (diagnostics : List Diagnostic) :
    (diagnostics.foldl Log.sink.accept log).toList = log.toList ++ diagnostics := by
  induction diagnostics generalizing log with
  | nil => simp
  | cons diagnostic others ih =>
      rw [List.foldl_cons, ih]
      have hadd : (Log.sink.accept log diagnostic).toList = log.toList ++ [diagnostic] :=
        Log.toList_add log diagnostic
      rw [hadd, List.append_assoc, List.singleton_append]

end Scan

/-- The scan of a source gives its tokens and its diagnostics. -/
theorem exists_scan_eq_ok
    {source : String}
    (hfits : FitsWords source.toList) :
    ∃ result, scan source = .ok result ∧
      result.tokens = tokensOf source.toList ∧
      result.reports.toList = diagnosticsOf source.toList := by
  obtain ⟨result, hresult, htokens, hreports, -⟩ :=
    Scan.exists_ofChars_eq_ok Log.sink Log.empty hfits
  refine ⟨result, hresult, htokens, ?_⟩
  rw [hreports, Scan.foldl_accept_toList, Log.toList_empty, List.nil_append]

/-- A scan that has given a result has given the tokens and the diagnostics of
its source. -/
theorem eq_of_scan_eq_ok
    {source : String} {result : Scan Log}
    (hfits : FitsWords source.toList)
    (hresult : scan source = .ok result) :
    result.tokens = tokensOf source.toList ∧
      result.reports.toList = diagnosticsOf source.toList := by
  obtain ⟨found, hfound, htokens, hdiagnostics⟩ := exists_scan_eq_ok hfits
  obtain rfl : found = result := Except.ok.inj (hfound.symm.trans hresult)
  exact ⟨htokens, hdiagnostics⟩

end LoxLexer

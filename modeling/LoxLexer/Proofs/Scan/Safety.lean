import LoxLexer.Proofs.Scan.Turn
import LoxLexer.Proofs.Source.Coordinates
import Mathlib.Data.List.Basic

/-!
# Scans do not fault

A source of fewer than `2 ^ 32 - 1` characters is scanned without a fault, into
any sink.  At each turn there is a character to read, the offsets that the turn
uses lie in order inside the source and are words as they are, and the line is
counted on within a word.

The spans that come out of a scan can be used as freely: the end of each is a
word inside the source, and the index of the source has a place for its start.
-/

namespace LoxLexer

/-! ## States and turns -/

namespace Scan

variable {σ : Type}

/-- A state lies in its source, and its offset and its line are exact. -/
structure State.Exact (source : List Char) (state : State σ) : Prop where
  inside : state.current ≤ source.length
  offset : (Word.ofCount state.current).toNat = state.current
  line : state.line.toNat = 1 + (source.take state.current).count '\n'

/-- A turn that reads a lexeme has a character to read, cuts the lexeme and the
body of a string out of the source, makes a span, and counts the line feeds. -/
structure State.TurnsSafely (source : List Char) (lexeme : Lexeme) (state next : State σ) :
    Prop where
  remains : state.current < source.length
  start : next.start = state.current
  ordered : next.start < next.current
  inside : next.current ≤ source.length
  text : source.extract next.start next.current = lexeme.text
  body : ∀ body, lexeme = .string body → next.start + 1 ≤ next.current - 1 ∧
    source.extract (next.start + 1) (next.current - 1) = body
  startWord : (Word.ofCount next.start).toNat = next.start
  currentWord : (Word.ofCount next.current).toNat = next.current
  span : next.span = .ok ⟨Word.ofCount next.start, Word.ofCount (next.current - next.start)⟩
  line : next.line.toNat = state.line.toNat + lexeme.lineFeeds

/-- A scan of a source into a sink gives a result, and so does each of its turns
on the way there. -/
structure RunsSafely (sink : Sink σ) (reports : σ) (source : String) : Prop where
  finishes : ∃ result, scanInto sink reports source = .ok result
  states : ∀ state remaining, State.Reaches sink reports source.toList state remaining →
    state.Exact source.toList
  turns : ∀ state c others, State.Reaches sink reports source.toList state (c :: others) →
    ∃ next, state.marked.read sink (Lexeme.first c others).1 = .ok next ∧
      State.TurnsSafely source.toList (Lexeme.first c others).1 state next

namespace State

variable {sink : Sink σ} {source : List Char} {state next : State σ}

/-- A state that has read a beginning of its source is exact. -/
theorem At.exact
    {before remaining : List Char}
    (hat : state.At before)
    (hsource : source = before ++ remaining)
    (hfits : FitsWords source) :
    state.Exact source := by
  have hbefore : FitsWords before := by
    rw [hsource] at hfits
    exact hfits.mono (List.prefix_append _ _)
  constructor
  · rw [hat.current, hsource, List.length_append]
    exact Nat.le_add_right _ _
  · rw [hat.current, hbefore.toNat_length]
  · rw [hat.line, hat.current, hsource, List.take_left]

/-- A part of a text is what stands between the offsets of its ends. -/
theorem extract_append
    (before part rest : List Char) :
    (before ++ part ++ rest).extract before.length (before.length + part.length) = part := by
  rw [List.extract_eq_take_drop, List.append_assoc, List.drop_left, Nat.add_sub_cancel_left,
    List.take_left]

/-- A turn that reads a valid lexeme of a source reads it safely. -/
theorem Steps.turnsSafely
    {before rest : List Char} {lexeme : Lexeme}
    (hsteps : Steps sink before lexeme state next)
    (hat : state.At before)
    (hvalid : lexeme.Valid)
    (hsource : source = before ++ lexeme.text ++ rest)
    (hfits : FitsWords source) :
    TurnsSafely source lexeme state next := by
  have hpos := List.length_pos_iff.mpr (Lexeme.text_ne_nil_of_valid hvalid)
  have hlength : source.length = before.length + lexeme.text.length + rest.length := by
    rw [hsource, List.length_append, List.length_append]
  have hread : FitsWords (before ++ lexeme.text) := by
    rw [hsource] at hfits
    exact hfits.mono (List.prefix_append _ _)
  have hstart : next.start = before.length := hsteps.start.trans hat.current
  have hcurrent : next.current = before.length + lexeme.text.length := by
    rw [hsteps.moves.current, List.length_append]
  have hspan : next.span = .ok (Placed.mk before lexeme).span := by
    have hmoved := at_moved hat hvalid hread
    rw [← span_moved hat hread, span, span, hsteps.start, hsteps.moves.current, hmoved.current]
    rfl
  constructor
  · rw [hat.current]
    omega
  · exact hsteps.start
  · omega
  · omega
  · rw [hstart, hcurrent, hsource]
    exact extract_append before lexeme.text rest
  · rintro body rfl
    have htext : before ++ (Lexeme.string body).text ++ rest =
        (before ++ ['"']) ++ body ++ ('"' :: rest) := by
      simp [Lexeme.text]
    have hbody : (Lexeme.string body).text.length = body.length + 2 := by
      simp [Lexeme.text]
    have hopened : (before ++ ['"']).length = before.length + 1 := by
      rw [List.length_append, List.length_singleton]
    have hslice := extract_append (before ++ ['"']) body ('"' :: rest)
    have hend : next.current - 1 = before.length + 1 + body.length := by omega
    rw [hopened, ← htext, ← hsource, ← hend, ← hstart] at hslice
    exact ⟨by omega, hslice⟩
  · rw [hstart]
    exact (hread.mono (List.prefix_append _ _)).toNat_length
  · rw [hsteps.moves.current]
    exact hread.toNat_length
  · rw [hspan, hstart, hcurrent, Nat.add_sub_cancel_left]
    rfl
  · rw [hsteps.moves.line, hat.line, List.count_append, Lexeme.lineFeeds_eq_count hvalid,
      Nat.add_assoc]

end State

variable {sink : Sink σ} {reports : σ}

theorem runsSafely
    (sink : Sink σ) (reports : σ) {source : String}
    (hfits : FitsWords source.toList) :
    RunsSafely sink reports source := by
  constructor
  · obtain ⟨result, hresult, -⟩ := exists_ofChars_eq_ok sink reports hfits
    exact ⟨result, hresult⟩
  · intro state remaining hreaches
    obtain ⟨lexemes, hread⟩ := hreaches.exists_read hfits
    exact hread.stands.exact hread.source_eq hfits
  · intro state c others hreaches
    obtain ⟨lexemes, hread⟩ := hreaches.exists_read hfits
    obtain ⟨next, hnext, hsteps, -⟩ := hread.exists_turn hfits
    have hsource : source.toList = Lexeme.textOf lexemes ++ (Lexeme.first c others).1.text ++
        (Lexeme.first c others).2 := by
      rw [List.append_assoc, Lexeme.text_append_rest, ← hread.source_eq]
    exact ⟨next, hnext,
      hsteps.turnsSafely hread.stands (Lexeme.first_valid c others) hsource hfits⟩

end Scan

/-! ## Spans and the index -/

/-- The entries of an index are the offsets at which lines start, and there are
few enough of them to be counted in a word. -/
structure LineIndex.Exact (text : List Char) (index : LineIndex) : Prop where
  size : index.starts.size < UInt32.size
  starts : index.starts.toList.map UInt32.toNat =
    0 :: text.zipIdx.filterMap fun (c, offset) => if c = '\n' then some (offset + 1) else none

/-- A span of a source lies in it, all that is asked of a span has an answer, and
the index of the source has a place for its start. -/
structure Span.Usable (source : List Char) (span : Span) : Prop where
  inside : span.start.toNat + span.length.toNat ≤ source.length
  stop : ∃ stop, span.stop = .ok stop ∧ stop.toNat = span.start.toNat + span.length.toNat
  ends : ∃ ends, span.ends = .ok ends
  dotted : ∃ text, span.dotted = .ok text
  interval : ∃ text, span.interval = .ok text
  place : ∃ place, (LineIndex.ofChars source).placeOf span.start = .ok place

theorem LineIndex.exact_ofChars
    {text : List Char}
    (hfits : FitsWords text) :
    (ofChars text).Exact text := by
  rw [FitsWords] at hfits
  constructor
  · have hcount : (startsAfterFeeds text).length ≤ text.length := by
      have hlength := List.length_filterMap_le (fun entry : Char × Nat =>
        if entry.1 = '\n' then some (Word.ofCount (entry.2 + 1)) else none) text.zipIdx
      rwa [List.length_zipIdx] at hlength
    rw [ofChars, List.size_toArray, List.length_cons]
    omega
  · rw [ofChars, List.toList_toArray, List.map_cons, startsAfterFeeds, List.map_filterMap]
    congr 1
    apply List.filterMap_congr
    rintro ⟨c, offset⟩ hmem
    have hoffset : offset < text.length + 0 := List.snd_lt_of_mem_zipIdx hmem
    dsimp only
    by_cases hfeed : c = '\n'
    · rw [if_pos hfeed, if_pos hfeed, Option.map_some, Word.toNat_ofCount (by omega)]
    · rw [if_neg hfeed, if_neg hfeed, Option.map_none]

theorem LineIndex.exists_placeOf_eq_ok
    {source : List Char} {position : Word}
    (hfits : FitsWords source)
    (hposition : position.toNat ≤ source.length) :
    ∃ place, (ofChars source).placeOf position = .ok place := by
  obtain ⟨spot, hseen⟩ := exists_seenAt source position
  have hplaced : ¬ (position.toNat = 4294967295 ∧ '\n' ∉ source) := by
    have hsize : UInt32.size = 4294967296 := rfl
    rw [FitsWords] at hfits
    omega
  exact ⟨_, hseen.placeOf_eq_ok hfits hplaced⟩

theorem Span.usable
    {source : List Char} {span : Span}
    (hfits : FitsWords source)
    (hinside : span.start.toNat + span.length.toNat ≤ source.length) :
    span.Usable source := by
  have hsize : span.start.toNat + span.length.toNat < UInt32.size := by
    rw [FitsWords] at hfits
    omega
  have hstop : span.stop = .ok (Word.ofCount (span.start.toNat + span.length.toNat)) :=
    Word.advance_eq_ok hsize
  constructor
  · exact hinside
  · exact ⟨_, hstop, Word.toNat_ofCount hsize⟩
  · rw [ends, hstop]
    exact ⟨_, rfl⟩
  · rw [dotted, hstop]
    exact ⟨_, rfl⟩
  · rw [interval, hstop]
    exact ⟨_, rfl⟩
  · exact LineIndex.exists_placeOf_eq_ok hfits (by omega)

theorem Placed.span_usable
    {source : List Char} {placed : Placed}
    (hfits : FitsWords source)
    (hmem : placed ∈ placedOf source) :
    placed.span.Usable source := by
  obtain ⟨hstart, hlength, -⟩ := toNat_of_mem_placedOf hfits hmem
  apply Span.usable hfits
  rw [hstart, hlength]
  exact length_le_of_mem_placedOf hmem

theorem span_usable_of_mem_tokensOf
    {source : List Char} {token : Token}
    (hfits : FitsWords source)
    (hmem : token ∈ tokensOf source) :
    token.span.Usable source := by
  rcases mem_tokensOf_iff.mp hmem with ⟨placed, hplaced, htoken⟩ | rfl
  · rw [(Placed.token?_eq_some_iff.mp htoken).2.2.2]
    exact Placed.span_usable hfits hplaced
  · apply Span.usable hfits
    simp only [Token.endOfInput, Span.empty]
    rw [hfits.toNat_length, UInt32.toNat_zero]
    exact Nat.le_refl _

theorem exists_span_usable_of_mem_diagnosticsOf
    {source : List Char} {diagnostic : Diagnostic}
    (hfits : FitsWords source)
    (hmem : diagnostic ∈ diagnosticsOf source) :
    ∃ span, diagnostic.span = some span ∧ span.Usable source := by
  obtain ⟨placed, hplaced, hmakes⟩ := mem_diagnosticsOf_iff.mp hmem
  obtain ⟨template, arguments, -, rfl⟩ := Placed.diagnostic?_eq_some_iff.mp hmakes
  exact ⟨placed.span, rfl, Placed.span_usable hfits hplaced⟩

/-- No scan of a source whose offsets are words faults, and nothing that is asked
later of its spans does. -/
theorem scan_faultless
    {source : String}
    (hlength : source.length ≤ 4294967294) :
    (∀ {σ : Type} (sink : Sink σ) (reports : σ), Scan.RunsSafely sink reports source) ∧
      (LineIndex.ofChars source.toList).Exact source.toList ∧
      ∃ result, scan source = .ok result ∧
        (∀ token ∈ result.tokens, token.span.Usable source.toList) ∧
        ∀ diagnostic ∈ result.reports.toList, ∃ span, diagnostic.span = some span ∧
          span.Usable source.toList := by
  have hfits := fitsWords_of_length_le hlength
  obtain ⟨result, hresult, htokens, hdiagnostics⟩ := exists_scan_eq_ok hfits
  refine ⟨fun sink reports => Scan.runsSafely sink reports hfits,
    LineIndex.exact_ofChars hfits, result, hresult, ?_, ?_⟩
  · intro token hmem
    rw [htokens] at hmem
    exact span_usable_of_mem_tokensOf hfits hmem
  · intro diagnostic hmem
    rw [hdiagnostics] at hmem
    exact exists_span_usable_of_mem_diagnosticsOf hfits hmem

/-- A string over two lines, and one left open at the end of the source. -/
theorem scan_faultless_of_open_string :
    "\"a\nb\" 3.4 @\n\"c".length ≤ 4294967294 ∧
      (∀ {σ : Type} (sink : Sink σ) (reports : σ),
        Scan.RunsSafely sink reports "\"a\nb\" 3.4 @\n\"c") ∧
      (LineIndex.ofChars "\"a\nb\" 3.4 @\n\"c".toList).Exact "\"a\nb\" 3.4 @\n\"c".toList ∧
      ∃ result, scan "\"a\nb\" 3.4 @\n\"c" = .ok result ∧
        (∀ token ∈ result.tokens, token.span.Usable "\"a\nb\" 3.4 @\n\"c".toList) ∧
        ∀ diagnostic ∈ result.reports.toList, ∃ span, diagnostic.span = some span ∧
          span.Usable "\"a\nb\" 3.4 @\n\"c".toList :=
  ⟨by decide, scan_faultless (by decide)⟩

end LoxLexer

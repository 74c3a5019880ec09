import LoxLexer.Proofs.Scan.Narration

/-!
# The cursor of a scan

A scan takes one turn for each lexeme.  At the beginning of a turn it marks where
it stands, and then reads on from there.  Between two turns, and at the mark as
well, its two offsets are in order and inside the source, each of its lines counts
the line feeds before an offset, and all that has been found so far lies before the
cursor.

A turn reads at least one character, keeps the mark, and finds one token, or one
error, or nothing; what it finds reaches from the mark to the cursor
(`IsSound.exists_turn`).  So there are no more turns than characters
(`scan_keepsCursor`).

All this is said of a scan into an empty log, which holds what has been reported so
far; a scan into another sink takes the same turns (`ReachesIn.exists_delivered`).
-/

namespace LoxLexer

namespace Finding

/-- A finding reaches from one offset to another. -/
def Covers (start stop : ℕ) (finding : Finding) : Prop :=
  ∃ span, finding.span = some span ∧
    span.start.toNat = start ∧ span.start.toNat + span.length.toNat = stop

/-- A finding ends at an offset, or before it. -/
def EndsBy (offset : ℕ) (finding : Finding) : Prop :=
  ∃ start stop, finding.Covers start stop ∧ stop ≤ offset

theorem EndsBy.mono
    {finding : Finding} {offset later : ℕ}
    (hends : finding.EndsBy offset)
    (hle : offset ≤ later) :
    finding.EndsBy later := by
  obtain ⟨start, stop, hcovers, hstop⟩ := hends
  exact ⟨start, stop, hcovers, hstop.trans hle⟩

end Finding

theorem Placed.covers_of_finding?_eq_some
    {placed : Placed} {finding : Finding}
    (hfinds : placed.finding? = some finding)
    (hfits : FitsWords (placed.before ++ placed.lexeme.text)) :
    finding.Covers placed.before.length (placed.before ++ placed.lexeme.text).length := by
  obtain ⟨hstart, hlength, -⟩ := toNat_of_fitsWords hfits
  refine ⟨placed.span, span_of_finding?_eq_some hfinds, hstart, ?_⟩
  rw [hstart, hlength, List.length_append]

namespace Scan
namespace State

/-- The offsets of a state are in order inside the source, its lines are those of its
offsets, and what has been found so far lies before its cursor. -/
structure IsSound (source : List Char) (state : State Log) : Prop where
  ordered : state.start ≤ state.current
  inside : state.current ≤ source.length
  line : state.line.toNat = 1 + (source.take state.current).count '\n'
  startLine : state.startLine.toNat = 1 + (source.take state.start).count '\n'
  tokens : ∀ token ∈ state.tokens.toList, (Finding.token token).EndsBy state.current
  reports : ∀ diagnostic ∈ state.reports.toList,
    (Finding.error diagnostic).EndsBy state.current
  errors : state.errors = state.reports.toList.length

/-- What a state holds more than another one: a token, an error, or nothing. -/
def Gains (old new : State Log) : Option Finding → Prop
  | none => new.tokens = old.tokens ∧ new.reports = old.reports
  | some (.token found) => new.tokens = old.tokens.push found ∧ new.reports = old.reports
  | some (.error found) => new.tokens = old.tokens ∧ new.reports = old.reports.add found

/-- A turn moves the cursor on and keeps the mark; at most one thing is found in it,
which reaches from the mark to the cursor. -/
structure Turns (mark next : State Log) (finding : Option Finding) : Prop where
  start : next.start = mark.start
  startLine : next.startLine = mark.startLine
  current : mark.current < next.current
  gains : Gains mark next finding
  covers : ∀ found ∈ finding, found.Covers next.start next.current

/-- A scan reaches a state, before what remains of its source, in a number of
turns. -/
inductive ReachesIn {σ : Type} (sink : Sink σ) (reports : σ) (source : List Char) :
    ℕ → State σ → List Char → Prop
  | initial : ReachesIn sink reports source 0 (State.initial reports) source
  | turn {turns : ℕ} {state next : State σ} {c : Char} {others : List Char} :
      ReachesIn sink reports source turns state (c :: others) →
      state.marked.read sink (Lexeme.first c others).1 = .ok next →
      ReachesIn sink reports source (turns + 1) next (Lexeme.first c others).2

end State

/-- The cursor of a scan of a source, at all of its turns.  The last field says that
the turns are the same whatever the errors are handed to. -/
structure KeepsCursor (source : String) : Prop where
  sound : ∀ turns state remaining,
    State.ReachesIn Log.sink Log.empty source.toList turns state remaining →
      state.IsSound source.toList ∧ turns ≤ state.current
  turns : ∀ turns state c others,
    State.ReachesIn Log.sink Log.empty source.toList turns state (c :: others) →
      state.marked.IsSound source.toList ∧ ∃ next finding,
        state.marked.read Log.sink (Lexeme.first c others).1 = .ok next ∧
          State.Turns state.marked next finding ∧ next.IsSound source.toList
  finishes : ∃ turns final,
    State.ReachesIn Log.sink Log.empty source.toList turns final [] ∧
      turns ≤ source.length ∧ scan source = .ok (Scan.ofState final)
  delivered : ∀ {σ : Type} (sink : Sink σ) (reports : σ) turns state remaining,
    State.ReachesIn sink reports source.toList turns state remaining →
      ∃ logged, State.ReachesIn Log.sink Log.empty source.toList turns logged remaining ∧
        state = logged.delivered sink reports

namespace State

variable {source : List Char} {state next : State Log}

/-! ## One turn -/

theorem isSound_initial (source : List Char) :
    IsSound source (State.initial Log.empty) where
  ordered := Nat.le_refl 0
  inside := Nat.zero_le _
  line := rfl
  startLine := rfl
  tokens := List.forall_mem_nil _
  reports := List.forall_mem_nil _
  errors := rfl

theorem IsSound.marked
    (hsound : state.IsSound source) :
    state.marked.IsSound source :=
  ⟨Nat.le_refl _, hsound.inside, hsound.line, hsound.line, hsound.tokens, hsound.reports,
    hsound.errors⟩

theorem IsSound.at_take
    (hsound : state.IsSound source) :
    state.At (source.take state.current) where
  current := by rw [List.length_take, Nat.min_eq_left hsound.inside]
  line := hsound.line

/-- What a state holds more after a lexeme has been read is what is found at the
place of the lexeme. -/
theorem Reads.gains
    {placed : Placed}
    (hreads : Reads Log.sink [placed] state next) :
    Gains state next placed.finding? := by
  have htokens := hreads.tokens
  have hreports := hreads.reports
  unfold Placed.finding?
  cases htoken : placed.token? with
  | some token =>
      rw [List.filterMap_cons_some htoken, List.filterMap_nil, ← Array.toList_push,
        Array.toList_inj] at htokens
      rw [List.filterMap_cons_none (Placed.diagnostic?_eq_none_of_token? htoken)] at hreports
      exact ⟨htokens, hreports⟩
  | none =>
      rw [List.filterMap_cons_none htoken, List.filterMap_nil, List.append_nil,
        Array.toList_inj] at htokens
      cases hmakes : placed.diagnostic? with
      | some diagnostic =>
          rw [List.filterMap_cons_some hmakes] at hreports
          exact ⟨htokens, hreports⟩
      | none =>
          rw [List.filterMap_cons_none hmakes] at hreports
          exact ⟨htokens, hreports⟩

/-- What has been found stays before the cursor as it goes on. -/
theorem Gains.endsBy
    {finding : Option Finding}
    (hgains : Gains state next finding)
    (hsound : state.IsSound source)
    (hcurrent : state.current ≤ next.current)
    (hends : ∀ found ∈ finding, found.EndsBy next.current) :
    (∀ token ∈ next.tokens.toList, (Finding.token token).EndsBy next.current) ∧
      ∀ diagnostic ∈ next.reports.toList, (Finding.error diagnostic).EndsBy next.current := by
  have htokens : ∀ token ∈ state.tokens.toList, (Finding.token token).EndsBy next.current :=
    fun token hmem => (hsound.tokens token hmem).mono hcurrent
  have hreports : ∀ diagnostic ∈ state.reports.toList,
      (Finding.error diagnostic).EndsBy next.current :=
    fun diagnostic hmem => (hsound.reports diagnostic hmem).mono hcurrent
  match finding with
  | none =>
      obtain ⟨hsame, hsilent⟩ := hgains
      rw [hsame, hsilent]
      exact ⟨htokens, hreports⟩
  | some (.token found) =>
      obtain ⟨hpushed, hsilent⟩ := hgains
      rw [hpushed, hsilent, Array.toList_push, List.forall_mem_append]
      exact ⟨⟨htokens, List.forall_mem_singleton.mpr (hends _ rfl)⟩, hreports⟩
  | some (.error found) =>
      obtain ⟨hsame, hadded⟩ := hgains
      rw [hsame, hadded, Log.toList_add, List.forall_mem_append]
      exact ⟨htokens, hreports, List.forall_mem_singleton.mpr (hends _ rfl)⟩

/-- A step that reads a lexeme is a turn. -/
theorem Steps.turns
    {before : List Char} {lexeme : Lexeme}
    (hsteps : Steps Log.sink before lexeme state next)
    (hat : state.At before)
    (hvalid : lexeme.Valid)
    (hfits : FitsWords (before ++ lexeme.text)) :
    Turns state.marked next (Placed.mk before lexeme).finding? where
  start := hsteps.start
  startLine := hsteps.startLine
  current := by
    have hpos := List.length_pos_iff.mpr (Lexeme.text_ne_nil_of_valid hvalid)
    have hbefore : state.marked.current = before.length := hat.current
    rw [hbefore, hsteps.moves.current, List.length_append]
    omega
  gains := hsteps.reads.gains
  covers := by
    intro finding hfinds
    rw [hsteps.start, hat.current, hsteps.moves.current]
    exact Placed.covers_of_finding?_eq_some hfinds hfits

/-- A step that reads a lexeme of the source from a sound state leaves a sound
state. -/
theorem Steps.isSound
    {before rest : List Char} {lexeme : Lexeme}
    (hsteps : Steps Log.sink before lexeme state next)
    (hturns : Turns state.marked next (Placed.mk before lexeme).finding?)
    (hsound : state.IsSound source)
    (hsource : source = before ++ lexeme.text ++ rest) :
    next.IsSound source := by
  have hcurrent : next.current = (before ++ lexeme.text).length := hsteps.moves.current
  have hon : state.current ≤ next.current := hturns.current.le
  have hends : ∀ found ∈ (Placed.mk before lexeme).finding?, found.EndsBy next.current :=
    fun found hfound => ⟨_, _, hturns.covers found hfound, Nat.le_refl _⟩
  obtain ⟨htokens, hreports⟩ := hturns.gains.endsBy hsound.marked hon hends
  constructor
  · rw [hsteps.start]
    exact hon
  · calc next.current = (before ++ lexeme.text).length := hcurrent
      _ ≤ (before ++ lexeme.text ++ rest).length := by simp
      _ = source.length := by rw [hsource]
  · rw [hcurrent, hsource, List.take_left]
    exact hsteps.moves.line
  · rw [hsteps.startLine, hsteps.start]
    exact hsound.line
  · exact htokens
  · exact hreports
  · rw [hsteps.reads.errors, hsteps.reads.reports, foldl_accept_toList, List.length_append,
      hsound.errors]

/-- From a sound state a scan takes a turn, if a character remains, and comes to a
sound state again. -/
theorem IsSound.exists_turn
    {c : Char} {others : List Char}
    (hsound : state.IsSound source)
    (hremains : source.drop state.current = c :: others)
    (hfits : FitsWords source) :
    ∃ next finding,
      state.marked.read Log.sink (Lexeme.first c others).1 = .ok next ∧
        Turns state.marked next finding ∧ next.IsSound source ∧
        source.drop next.current = (Lexeme.first c others).2 := by
  have hat := hsound.at_take
  have hsource : source = source.take state.current ++ (Lexeme.first c others).1.text ++
      (Lexeme.first c others).2 := by
    rw [List.append_assoc, Lexeme.text_append_rest, ← hremains, List.take_append_drop]
  generalize source.take state.current = before at hat hsource
  have hread : FitsWords (before ++ (Lexeme.first c others).1.text) := by
    rw [hsource] at hfits
    exact hfits.mono (List.prefix_append _ _)
  have hvalid := Lexeme.first_valid c others
  obtain ⟨next, hnext, hsteps⟩ := exists_read_eq_ok Log.sink hat hvalid hread
  have hturns := hsteps.turns hat hvalid hread
  refine ⟨next, _, hnext, hturns, hsteps.isSound hturns hsound hsource, ?_⟩
  rw [hsteps.moves.current, hsource, List.drop_left]

/-! ## Many turns -/

/-- Whatever a scan reaches is sound, and it has read a character in every turn. -/
theorem ReachesIn.isSound
    {turns : ℕ} {remaining : List Char}
    (hreaches : ReachesIn Log.sink Log.empty source turns state remaining)
    (hfits : FitsWords source) :
    state.IsSound source ∧ source.drop state.current = remaining ∧ turns ≤ state.current := by
  induction hreaches with
  | initial => exact ⟨isSound_initial source, rfl, Nat.le_refl 0⟩
  | turn _ hread ih =>
      obtain ⟨hsound, hremains, hturns⟩ := ih
      obtain ⟨next, finding, hnext, hturn, hsound', hremains'⟩ :=
        hsound.exists_turn hremains hfits
      obtain rfl := Except.ok.inj (hnext.symm.trans hread)
      have hon := hturn.current
      exact ⟨hsound', hremains', Nat.succ_le_of_lt (Nat.lt_of_le_of_lt hturns hon)⟩

/-- From whatever a scan reaches it comes to the end of the source. -/
theorem ReachesIn.exists_final
    {turns : ℕ} {remaining : List Char}
    (hreaches : ReachesIn Log.sink Log.empty source turns state remaining)
    (hfits : FitsWords source) :
    ∃ total final, ReachesIn Log.sink Log.empty source total final [] ∧
      state.readAll Log.sink remaining = .ok final := by
  -- the recursion of `readAll`, which is that of the cut of what remains
  induction remaining using Lexeme.cut.induct generalizing turns state with
  | case1 => exact ⟨turns, state, hreaches, by rw [readAll]⟩
  | case2 c others ih =>
      obtain ⟨hsound, hremains, -⟩ := hreaches.isSound hfits
      obtain ⟨next, -, hnext, -⟩ := hsound.exists_turn hremains hfits
      obtain ⟨total, final, hfinal, hreads⟩ := ih (hreaches.turn hnext)
      refine ⟨total, final, hfinal, ?_⟩
      rw [readAll, hnext]
      exact hreads

/-- A scan into a sink takes the turns of the scan into an empty log, and the sink is
told of what the log holds. -/
theorem ReachesIn.exists_delivered
    {σ : Type} {sink : Sink σ} {reports : σ} {turns : ℕ} {state : State σ}
    {remaining : List Char}
    (hreaches : ReachesIn sink reports source turns state remaining) :
    ∃ logged, ReachesIn Log.sink Log.empty source turns logged remaining ∧
      state = logged.delivered sink reports := by
  induction hreaches with
  | initial => exact ⟨_, .initial, rfl⟩
  | @turn turns state next c others _ hread ih =>
      obtain ⟨logged, hlogged, rfl⟩ := ih
      have hmarked : (logged.delivered sink reports).marked =
          logged.marked.delivered sink reports := rfl
      rw [hmarked, read_delivered] at hread
      cases hafter : logged.marked.read Log.sink (Lexeme.first c others).1 with
      | error fault =>
          rw [hafter] at hread
          cases hread
      | ok after =>
          rw [hafter] at hread
          exact ⟨after, hlogged.turn hafter, (Except.ok.inj hread).symm⟩

end State
end Scan

/-- At every turn of a scan its cursor lies in the source and tells its line, and all
that has been found so far lies before it; a turn reads on from its mark and finds at
most one thing there; and there are no more turns than characters. -/
theorem scan_keepsCursor
    {source : String}
    (hlength : source.length ≤ 4294967294) :
    Scan.KeepsCursor source := by
  have hfits := fitsWords_of_length_le hlength
  constructor
  · intro turns state remaining hreaches
    obtain ⟨hsound, -, hturns⟩ := hreaches.isSound hfits
    exact ⟨hsound, hturns⟩
  · intro turns state c others hreaches
    obtain ⟨hsound, hremains, -⟩ := hreaches.isSound hfits
    obtain ⟨next, finding, hnext, hturn, hafter, -⟩ := hsound.exists_turn hremains hfits
    exact ⟨hsound.marked, next, finding, hnext, hturn, hafter⟩
  · obtain ⟨turns, final, hfinal, hreads⟩ :=
      Scan.State.ReachesIn.exists_final .initial hfits
    obtain ⟨hsound, -, hturns⟩ := hfinal.isSound hfits
    have hinside := hsound.inside
    rw [String.length_toList] at hinside
    refine ⟨turns, final, hfinal, hturns.trans hinside, ?_⟩
    rw [scan, scanInto, Scan.ofChars, hreads]
    rfl
  · intro σ sink reports turns state remaining hreaches
    exact hreaches.exists_delivered

/-- A string over two lines, an error, a comment, and a string that is left open. -/
theorem scan_keepsCursor_of_comment :
    "\"a\nb\" @ // c\n3.4 \"d\n".length ≤ 4294967294 ∧
      Scan.KeepsCursor "\"a\nb\" @ // c\n3.4 \"d\n" :=
  ⟨by decide, scan_keepsCursor (by decide)⟩

end LoxLexer

import LoxLexer.Proofs.Scan.Delivery
import Mathlib.Data.List.Forall2

/-!
# What the events of a scan tell

A scan finds tokens and errors and keeps them apart: the tokens are given at the
end, the errors are handed to a sink on the way.  Its events tell of both.  They
tell of them in the order of the source: merged by the offsets at which they
start, the tokens and the diagnostics are told of one after the other, and the
totals come last (`scan_narrates`).
-/

namespace LoxLexer

/-! ## Findings -/

/-- What is found in a source: a token, or an error. -/
inductive Finding where
  | token (found : Token)
  | error (found : Diagnostic)

namespace Finding

/-- The part of the source where something is found; a diagnostic may lack it. -/
def span : Finding → Option Span
  | .token found => some found.span
  | .error found => found.span

/-- The first of two findings starts before the second. -/
def Precedes (first second : Finding) : Prop :=
  ∃ span other, first.span = some span ∧ second.span = some other ∧ span.start < other.start

/-- Whether the first of two findings is to be put before the second. -/
def comesFirst (first second : Finding) : Bool :=
  match first.span, second.span with
  | some span, some other => decide (span.start ≤ other.start)
  | _, _ => true

/-- Tokens and diagnostics, each in order, put together in the order in which
they start. -/
def merge (tokens : List Token) (diagnostics : List Diagnostic) : List Finding :=
  (tokens.map token).merge (diagnostics.map error) comesFirst

/-- An event tells of a finding. -/
def IsToldBy (event : Event) : Finding → Prop
  | .token found =>
    event = .token found.kind found.lexeme found.line ∧
      event.level.name = "TRACE" ∧ event.message = "token"
  | .error found =>
    event = .lexicalError found.line found.code ∧
      event.level.name = "DEBUG" ∧ event.message = "lexical error"

theorem Precedes.comesFirst_eq
    {first second : Finding}
    (hprecedes : first.Precedes second) :
    first.comesFirst second = true ∧ second.comesFirst first = false := by
  obtain ⟨span, other, hspan, hother, hlt⟩ := hprecedes
  rw [comesFirst, comesFirst, hspan, hother]
  rw [UInt32.lt_iff_toNat_lt] at hlt
  simp only [decide_eq_true_eq, decide_eq_false_iff_not, UInt32.le_iff_toNat_le]
  omega

theorem merge_nil_nil : merge [] [] = [] := List.merge_right _

/-- A token that starts before all diagnostics comes first. -/
theorem merge_cons_token
    {first : Token} {diagnostics : List Diagnostic}
    (hfirst : ∀ diagnostic ∈ diagnostics, (token first).Precedes (error diagnostic))
    (tokens : List Token) :
    merge (first :: tokens) diagnostics = token first :: merge tokens diagnostics := by
  cases diagnostics with
  | nil => simp [merge]
  | cons diagnostic others =>
      have hprecedes := hfirst diagnostic List.mem_cons_self
      rw [merge, List.map_cons, List.map_cons, List.cons_merge_cons,
        if_pos hprecedes.comesFirst_eq.1]
      rfl

/-- A diagnostic that starts before all tokens comes first. -/
theorem merge_cons_error
    {first : Diagnostic} {tokens : List Token}
    (hfirst : ∀ found ∈ tokens, (error first).Precedes (token found))
    (diagnostics : List Diagnostic) :
    merge tokens (first :: diagnostics) = error first :: merge tokens diagnostics := by
  cases tokens with
  | nil => simp [merge]
  | cons found others =>
      have hprecedes := hfirst found List.mem_cons_self
      rw [merge, List.map_cons, List.map_cons, List.cons_merge_cons,
        if_neg (by simp [hprecedes.comesFirst_eq.2])]
      rfl

end Finding

/-! ## The findings at placed lexemes -/

namespace Placed

/-- What is found at a placed lexeme. -/
def finding? (placed : Placed) : Option Finding :=
  (placed.token?.map .token).or (placed.diagnostic?.map .error)

theorem span_of_token?_eq_some
    {placed : Placed} {token : Token}
    (htoken : placed.token? = some token) :
    (Finding.token token).span = some placed.span := by
  rw [Finding.span, (token?_eq_some_iff.mp htoken).2.2.2]

theorem span_of_diagnostic?_eq_some
    {placed : Placed} {diagnostic : Diagnostic}
    (hmakes : placed.diagnostic? = some diagnostic) :
    (Finding.error diagnostic).span = some placed.span := by
  obtain ⟨template, arguments, -, rfl⟩ := diagnostic?_eq_some_iff.mp hmakes
  rfl

theorem span_of_finding?_eq_some
    {placed : Placed} {finding : Finding}
    (hfinds : placed.finding? = some finding) :
    finding.span = some placed.span := by
  unfold finding? at hfinds
  cases htoken : placed.token? with
  | some token =>
      rw [htoken] at hfinds
      cases hfinds
      exact span_of_token?_eq_some htoken
  | none =>
      rw [htoken] at hfinds
      obtain ⟨diagnostic, hmakes, rfl⟩ := Option.map_eq_some_iff.mp hfinds
      exact span_of_diagnostic?_eq_some hmakes

/-- No lexeme makes both a token and a diagnostic. -/
theorem diagnostic?_eq_none_of_token?
    {placed : Placed} {token : Token}
    (htoken : placed.token? = some token) :
    placed.diagnostic? = none := by
  rw [diagnostic?, (token?_eq_some_iff.mp htoken).1]

/-- The event at a placed lexeme tells of what is found there. -/
theorem rel_isToldBy_event? (placed : Placed) :
    Option.Rel (fun finding event => Finding.IsToldBy event finding) placed.finding?
      placed.event? := by
  unfold finding? token? diagnostic? event?
  cases placed.lexeme.meaning with
  | nothing => exact .none
  | token kind literal => exact .some ⟨rfl, rfl, rfl⟩
  | error template arguments => exact .some ⟨rfl, rfl, rfl⟩

/-- The findings of a source start one after the other. -/
theorem pairwise_precedes
    {source : List Char}
    (hfits : FitsWords source) :
    ((placedOf source).filterMap finding?).Pairwise Finding.Precedes := by
  refine (pairwise_start_lt hfits).filterMap _ ?_
  intro first second hlt finding hfinding other hother
  exact ⟨_, _, span_of_finding?_eq_some hfinding, span_of_finding?_eq_some hother, hlt⟩

/-- What is found at lexemes that start one after the other are their tokens and
their diagnostics, merged. -/
theorem merge_filterMap
    {row : List Placed}
    (hrow : row.Pairwise fun first second => first.span.start < second.span.start) :
    Finding.merge (row.filterMap token?) (row.filterMap diagnostic?) =
      row.filterMap finding? := by
  induction hrow with
  | nil => exact Finding.merge_nil_nil
  | @cons placed others hlater _ ih =>
      cases htoken : placed.token? with
      | some token =>
          have hnone := diagnostic?_eq_none_of_token? htoken
          have hfinds : placed.finding? = some (.token token) := by
            rw [finding?, htoken]
            rfl
          rw [List.filterMap_cons_some htoken, List.filterMap_cons_none hnone,
            List.filterMap_cons_some hfinds, Finding.merge_cons_token, ih]
          intro diagnostic hmem
          obtain ⟨other, hother, hmakes⟩ := List.mem_filterMap.mp hmem
          exact ⟨_, _, span_of_token?_eq_some htoken, span_of_diagnostic?_eq_some hmakes,
            hlater other hother⟩
      | none =>
          have hfinds : placed.finding? = placed.diagnostic?.map .error := by
            rw [finding?, htoken]
            rfl
          rw [List.filterMap_cons_none htoken]
          cases hmakes : placed.diagnostic? with
          | none =>
              rw [hmakes] at hfinds
              rw [List.filterMap_cons_none hmakes, List.filterMap_cons_none hfinds, ih]
          | some diagnostic =>
              rw [hmakes] at hfinds
              rw [List.filterMap_cons_some hmakes, List.filterMap_cons_some hfinds,
                Finding.merge_cons_error, ih]
              intro token hmem
              obtain ⟨other, hother, hlatertoken⟩ := List.mem_filterMap.mp hmem
              exact ⟨_, _, span_of_diagnostic?_eq_some hmakes,
                span_of_token?_eq_some hlatertoken, hlater other hother⟩

end Placed

/-! ## The events of a scan -/

/-- The events of a scan tell of its tokens and of the diagnostics that it has
handed to its sink, in the order of the source, and at last of their numbers and
of the line on which the input ends. -/
structure Scan.Narrates {σ : Type} (source : String) (diagnostics : List Diagnostic)
    (scan : Scan σ) (told : List Event) (last : Event) (ending : Token) : Prop where
  events : scan.events = told ++ [last]
  ordered : (Finding.merge (scan.tokens.filter fun token => !token.isEnd)
    diagnostics).Pairwise Finding.Precedes
  tells : List.Forall₂ (fun finding event => Finding.IsToldBy event finding)
    (Finding.merge (scan.tokens.filter fun token => !token.isEnd) diagnostics) told
  totals : last = .finished scan.tokens.length diagnostics.length ending.line
  message : last.message = "scan finished"
  isLast : scan.tokens.getLast? = some ending
  isEnd : ending.isEnd = true
  lines : ending.line.toNat = 1 + source.toList.count '\n'

/-- What is found at placed lexemes is told of by their events. -/
theorem forall₂_isToldBy (row : List Placed) :
    List.Forall₂ (fun finding event => Finding.IsToldBy event finding)
      (row.filterMap Placed.finding?) (row.filterMap Placed.event?) := by
  refine List.rel_filterMap (R := Eq) ?_ (List.forall₂_same.mpr fun _ _ => rfl)
  rintro placed _ rfl
  exact placed.rel_isToldBy_event?

/-- Into any sink, the events of a scan tell what the scan gives: the merge of its
tokens and of the diagnostics handed to the sink, and then the totals. -/
theorem scan_narrates
    {source : String}
    (hlength : source.length ≤ 4294967294)
    {σ : Type} (sink : Sink σ) (reports : σ) :
    ∃ found result told last ending, scan source = .ok found ∧
      scanInto sink reports source = .ok result ∧
      result.tokens = found.tokens ∧
      result.reports = found.reports.toList.foldl sink.accept reports ∧
      result.Narrates source found.reports.toList told last ending := by
  have hfits := fitsWords_of_length_le hlength
  obtain ⟨found, hfound, htokens, hreports, hevents⟩ :=
    Scan.exists_ofChars_eq_ok Log.sink Log.empty hfits
  have hscan : scan source = .ok found := hfound
  have hdiagnostics : found.reports.toList = diagnosticsOf source.toList := by
    rw [hreports, Scan.foldl_accept_toList, Log.toList_empty, List.nil_append]
  have hmerge : Finding.merge (found.tokens.filter fun token => !token.isEnd)
      found.reports.toList = (placedOf source.toList).filterMap Placed.finding? := by
    rw [htokens, hdiagnostics, filter_not_isEnd_tokensOf]
    exact Placed.merge_filterMap (Placed.pairwise_start_lt hfits)
  refine ⟨found, found.delivered sink reports, _, _, Token.endOfInput
    (Word.ofCount (1 + source.toList.count '\n')) (Word.ofCount source.toList.length),
    hscan, ?_, rfl, rfl, hevents, ?_, ?_, ?_, rfl, ?_, rfl, hfits.toNat_line⟩
  · rw [scanInto_eq_map, hscan]
    rfl
  · rw [Scan.delivered, hmerge]
    exact Placed.pairwise_precedes hfits
  · rw [Scan.delivered, hmerge]
    exact forall₂_isToldBy (placedOf source.toList)
  · rw [Scan.delivered, htokens, hdiagnostics]
    rfl
  · rw [Scan.delivered, htokens, tokensOf, tokensFrom, List.getLast?_concat]
    rfl

/-- Errors between tokens, a string over two lines, and one left open. -/
theorem scan_narrates_of_errors :
    "a@ \"b\nc\"#\n\"d".length ≤ 4294967294 ∧
      ∃ found result told last ending, scan "a@ \"b\nc\"#\n\"d" = .ok found ∧
        scanInto Sink.pairs #[] "a@ \"b\nc\"#\n\"d" = .ok result ∧
        result.tokens = found.tokens ∧
        result.reports = found.reports.toList.foldl Sink.pairs.accept #[] ∧
        result.Narrates "a@ \"b\nc\"#\n\"d" found.reports.toList told last ending :=
  ⟨by decide, scan_narrates (by decide) Sink.pairs #[]⟩

end LoxLexer

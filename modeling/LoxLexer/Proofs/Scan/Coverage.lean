import LoxLexer.Proofs.Grammar.Layout
import LoxLexer.Proofs.Scan.Run
import Mathlib.Data.List.Sort

/-!
# Coverage

The spans of the tokens and of the diagnostics of a scan cut the source into
pieces: no two overlap, each token is the text of its span, and whatever lies
between them is layout.  No character is lost, and none is told of twice.

The placed lexemes of a source tile it by construction; the order and the
disjointness of the spans, and the layout between them, are read off the
tiling.
-/

namespace LoxLexer

open Grammar

/-- The spans of the tokens, the end of the input left out, and of the
diagnostics, sorted by their starts. -/
def coveredSpans (tokens : List Token) (diagnostics : List Diagnostic) : List Span :=
  ((tokens.filter fun token => !token.isEnd).map Token.span ++
    diagnostics.filterMap Diagnostic.span).mergeSort
      fun first second => first.start ≤ second.start

/-- One of the spans holds the character at an offset. -/
def Covered (spans : List Span) (offset : Nat) : Prop :=
  ∃ span ∈ spans, span.start.toNat ≤ offset ∧ offset < span.start.toNat + span.length.toNat

/-- The offsets from `low` up to `high` are a maximal stretch of a source that
no span covers. -/
structure IsGap (source : List Char) (spans : List Span) (low high : Nat) : Prop where
  ordered : low ≤ high
  inside : high ≤ source.length
  uncovered : ∀ offset, low ≤ offset → offset < high → ¬ Covered spans offset
  maximalBelow : low = 0 ∨ Covered spans (low - 1)
  maximalAbove : high = source.length ∨ Covered spans high

/-- Tokens and diagnostics that lose nothing of a source. -/
structure Lossless (source : List Char) (tokens : List Token)
    (diagnostics : List Diagnostic) : Prop where
  spanned : ∀ diagnostic ∈ diagnostics, diagnostic.span ≠ none
  nonempty : ∀ span ∈ coveredSpans tokens diagnostics, 0 < span.length.toNat
  inside : ∀ span ∈ coveredSpans tokens diagnostics,
    span.start.toNat + span.length.toNat ≤ source.length
  disjoint : (coveredSpans tokens diagnostics).Pairwise fun first second =>
    first.start.toNat + first.length.toNat ≤ second.start.toNat
  lexemes : ∀ token ∈ tokens, token.lexeme.toList =
    source.extract token.span.start.toNat (token.span.start.toNat + token.span.length.toNat)
  tokensOrdered : tokens.Pairwise fun first second => first.span.start < second.span.start
  diagnosticsOrdered : diagnostics.Pairwise fun first second =>
    ∀ before ∈ first.span, ∀ after ∈ second.span, before.start < after.start
  gaps : ∀ low high, IsGap source (coveredSpans tokens diagnostics) low high →
    IsLayout (source.extract low high) (source.drop high)
  endOfInput : ∃ front last, tokens = front ++ [last] ∧
    (∀ token ∈ front, token.kind ≠ .endOfInput) ∧
    last.kind = .endOfInput ∧ last.span.start.toNat = source.length ∧ last.span.length = 0

theorem not_covered_nil {place : Nat} : ¬ Covered [] place := by
  simp [Covered]

theorem covered_cons_iff
    {span : Span} {spans : List Span} {place : Nat} :
    Covered (span :: spans) place ↔
      (span.start.toNat ≤ place ∧ place < span.start.toNat + span.length.toNat) ∨
        Covered spans place := by
  simp [Covered]

/-! ## Tilings -/

/-- From an offset on, a source is layout and spans by turns. -/
inductive Tiled (source : List Char) : Nat → List Span → Prop
  | last {offset : Nat} :
      offset ≤ source.length → IsLayout (source.drop offset) [] → Tiled source offset []
  | next {offset : Nat} {gap : List Char} {span : Span} {spans : List Span} :
      source.drop offset = gap ++ source.drop span.start.toNat →
      offset + gap.length = span.start.toNat →
      IsLayout gap (source.drop span.start.toNat) →
      0 < span.length.toNat →
      Tiled source (span.start.toNat + span.length.toNat) spans →
      Tiled source offset (span :: spans)

namespace Tiled

variable {source : List Char} {offset : Nat} {spans : List Span}

theorem offset_le
    (htiled : Tiled source offset spans) :
    offset ≤ source.length := by
  induction htiled with
  | last hoffset => exact hoffset
  | next _ hgap _ _ _ ih => omega

theorem offset_le_start
    (htiled : Tiled source offset spans) :
    ∀ span ∈ spans, offset ≤ span.start.toNat := by
  induction htiled with
  | last => simp
  | next _ hgap _ _ _ ih =>
      intro span hspan
      rcases List.mem_cons.mp hspan with rfl | hspan
      · omega
      · have hafter := ih span hspan
        omega

theorem length_pos
    (htiled : Tiled source offset spans) :
    ∀ span ∈ spans, 0 < span.length.toNat := by
  induction htiled with
  | last => simp
  | next _ _ _ hpos _ ih => exact List.forall_mem_cons.mpr ⟨hpos, ih⟩

theorem stop_le
    (htiled : Tiled source offset spans) :
    ∀ span ∈ spans, span.start.toNat + span.length.toNat ≤ source.length := by
  induction htiled with
  | last => simp
  | next _ _ _ _ hrest ih => exact List.forall_mem_cons.mpr ⟨hrest.offset_le, ih⟩

theorem pairwise
    (htiled : Tiled source offset spans) :
    spans.Pairwise fun first second =>
      first.start.toNat + first.length.toNat ≤ second.start.toNat := by
  induction htiled with
  | last => exact List.Pairwise.nil
  | next _ _ _ _ hrest ih => exact List.Pairwise.cons hrest.offset_le_start ih

/-- Layout read before a tiling makes its first gap longer. -/
theorem prepend
    {before rest : List Char} {lexeme : Lexeme}
    (hsource : source = (before ++ lexeme.text) ++ rest)
    (hvalid : lexeme.Valid)
    (hstops : lexeme.Stops rest)
    (hmeaning : lexeme.meaning = .nothing)
    (htiled : Tiled source (before ++ lexeme.text).length spans) :
    Tiled source before.length spans := by
  have hbefore : before.length ≤ (before ++ lexeme.text).length := by simp
  have hrest : source.drop (before ++ lexeme.text).length = rest := by
    rw [hsource, List.drop_left]
  have hdrop : source.drop before.length = lexeme.text ++ rest := by
    rw [hsource, List.append_assoc, List.drop_left]
  cases htiled with
  | last hoffset hlayout =>
      refine .last (by omega) ?_
      rw [hrest] at hlayout
      rw [hdrop]
      rw [← List.append_nil rest] at hstops
      exact hlayout.append_text hvalid hstops hmeaning
  | @next _ gap span spans hgap hstart hlayout hpos htail =>
      rw [hrest] at hgap
      have hlonger : source.drop before.length =
          (lexeme.text ++ gap) ++ source.drop span.start.toNat := by
        rw [hdrop, hgap, List.append_assoc]
      refine .next hlonger ?_ ?_ hpos htail
      · rw [List.length_append] at hstart ⊢
        omega
      · rw [hgap] at hstops
        exact hlayout.append_text hvalid hstops hmeaning

theorem not_covered_of_lt
    {place : Nat}
    (htiled : Tiled source offset spans)
    (hlt : place < offset) :
    ¬ Covered spans place := by
  rintro ⟨span, hspan, hstart, -⟩
  have hle := htiled.offset_le_start span hspan
  omega

/-- A maximal uncovered stretch of a tiling is one of its gaps. -/
theorem layout_of_uncovered
    {low high : Nat}
    (htiled : Tiled source offset spans)
    (hoffset : offset ≤ low)
    (hinside : high ≤ source.length)
    (huncovered : ∀ place, low ≤ place → place < high → ¬ Covered spans place)
    (hbelow : low = offset ∨ Covered spans (low - 1))
    (habove : high = source.length ∨ Covered spans high)
    (hlt : low < high) :
    IsLayout (source.extract low high) (source.drop high) := by
  induction htiled with
  | @last offset hle hlayout =>
      obtain rfl : low = offset := hbelow.resolve_right not_covered_nil
      obtain rfl : high = source.length := habove.resolve_right not_covered_nil
      rw [List.drop_length, List.extract, List.take_of_length_le (by simp)]
      exact hlayout
  | @next offset gap span spans hgap hstart hlayout hpos hrest ih =>
      have hstop := hrest.offset_le
      simp only [covered_cons_iff] at huncovered hbelow habove
      by_cases hlow : low < span.start.toNat
      · -- the stretch begins in the first gap, so it is that gap
        have hfirst : low = offset := by
          rcases hbelow with hlow | hcovers | hlater
          · exact hlow
          · omega
          · exact absurd hlater (hrest.not_covered_of_lt (by omega))
        have hhigh : high ≤ span.start.toNat := by
          by_contra hbeyond
          exact huncovered span.start.toNat (by omega) (by omega) (Or.inl (by omega))
        have hlast : high = span.start.toNat := by
          rcases habove with hhigh | hcovers | hlater
          · omega
          · omega
          · exact absurd hlater (hrest.not_covered_of_lt (by omega))
        rw [hlast, hfirst, List.extract, hgap, List.take_append_of_le_length (by omega),
          List.take_of_length_le (by omega)]
        exact hlayout
      · -- it begins after the first span, in the rest of the tiling
        have hbeyond : span.start.toNat + span.length.toNat ≤ low := by
          by_contra hcovers
          exact huncovered low (Nat.le_refl low) hlt (Or.inl (by omega))
        apply ih hbeyond
        · intro place hplace hbefore hcovered
          exact huncovered place hplace hbefore (Or.inr hcovered)
        · rcases hbelow with hlow | hcovers | hlater
          · omega
          · exact Or.inl (by omega)
          · exact Or.inr hlater
        · rcases habove with hhigh | hcovers | hlater
          · exact Or.inl hhigh
          · omega
          · exact Or.inr hlater

end Tiled

/-! ## The tiling of a source -/

/-- The span of a placed lexeme that is not layout. -/
def Placed.span? (placed : Placed) : Option Span :=
  match placed.lexeme.meaning with
  | .token _ _ | .error _ _ => some placed.span
  | .nothing => none

theorem span?_eq_some
    {placed : Placed} {span : Span}
    (hspan : placed.span? = some span) :
    span = placed.span := by
  unfold Placed.span? at hspan
  split at hspan
  · exact (Option.some.inj hspan).symm
  · exact (Option.some.inj hspan).symm
  · cases hspan

/-- The span of a placed lexeme ends the gap before it, which is empty. -/
theorem Tiled.cons_placed
    {source before rest : List Char} {lexeme : Lexeme} {spans : List Span}
    (hfits : FitsWords source)
    (hsource : source = (before ++ lexeme.text) ++ rest)
    (hvalid : lexeme.Valid)
    (htiled : Tiled source (before ++ lexeme.text).length spans) :
    Tiled source before.length ((Placed.mk before lexeme).span :: spans) := by
  have hplaced : FitsWords ((Placed.mk before lexeme).before ++
      (Placed.mk before lexeme).lexeme.text) := by
    rw [hsource] at hfits
    exact hfits.mono (List.prefix_append _ _)
  obtain ⟨hstart, hcount, -⟩ := Placed.toNat_of_fitsWords hplaced
  have hpos := List.length_pos_iff.mpr (Lexeme.text_ne_nil_of_valid hvalid)
  have hgap : source.drop before.length =
      [] ++ source.drop (Placed.mk before lexeme).span.start.toNat := by
    rw [hstart, List.nil_append]
  refine .next hgap ?_ .nil ?_ ?_
  · rw [hstart, List.length_nil, Nat.add_zero]
  · rwa [hcount]
  · rwa [hstart, hcount, ← List.length_append]

/-- The placed lexemes of a source tile it. -/
theorem tiled_place
    {source before : List Char} {lexemes : List Lexeme}
    (hfits : FitsWords source)
    (hsource : source = before ++ Lexeme.textOf lexemes)
    (hseparated : Lexeme.Separated lexemes) :
    Tiled source before.length ((place before lexemes).filterMap Placed.span?) := by
  induction lexemes generalizing before with
  | nil =>
      rw [Lexeme.textOf_nil, List.append_nil] at hsource
      refine .last (by rw [hsource]) ?_
      rw [hsource, List.drop_length]
      exact .nil
  | cons lexeme others ih =>
      obtain ⟨hvalid, hstops, hothers⟩ := hseparated
      rw [Lexeme.textOf_cons] at hsource
      have hlater : source = (before ++ lexeme.text) ++ Lexeme.textOf others := by
        rw [hsource, List.append_assoc]
      have htiled := ih hlater hothers
      have hspan := htiled.cons_placed hfits hlater hvalid
      rw [place, List.filterMap_cons]
      unfold Placed.span? at hspan ⊢
      cases hmeaning : lexeme.meaning with
      | nothing => exact htiled.prepend hlater hvalid hstops hmeaning
      | token kind literal => exact hspan
      | error template arguments => exact hspan

/-- Tokens and diagnostics share the spans of the placed lexemes among them. -/
theorem spans_perm (placed : List Placed) :
    ((placed.filterMap Placed.token?).map Token.span ++
      (placed.filterMap Placed.diagnostic?).filterMap Diagnostic.span).Perm
        (placed.filterMap Placed.span?) := by
  induction placed with
  | nil => exact List.Perm.nil
  | cons first others ih =>
      cases hmeaning : first.lexeme.meaning with
      | nothing =>
          simpa [List.filterMap_cons, Placed.token?, Placed.diagnostic?, Placed.span?, hmeaning]
            using ih
      | token kind literal =>
          simpa [List.filterMap_cons, Placed.token?, Placed.diagnostic?, Placed.span?, hmeaning]
            using ih
      | error template arguments =>
          simp only [List.filterMap_cons, Placed.token?, Placed.diagnostic?, Placed.span?,
            hmeaning, Diagnostic.spanning]
          exact List.perm_middle.trans (ih.cons _)

/-- The sorted spans of a scan are those of the placed lexemes, as they come. -/
theorem coveredSpans_eq
    {source : List Char}
    (hfits : FitsWords source) :
    coveredSpans (tokensOf source) (diagnosticsOf source) =
      (placedOf source).filterMap Placed.span? := by
  have hperm : (coveredSpans (tokensOf source) (diagnosticsOf source)).Perm
      ((placedOf source).filterMap Placed.span?) := by
    rw [coveredSpans, filter_not_isEnd_tokensOf]
    exact (List.mergeSort_perm _ _).trans (spans_perm _)
  have hsorted : (coveredSpans (tokensOf source) (diagnosticsOf source)).Pairwise
      fun first second => first.start ≤ second.start := by
    have hmerge : (coveredSpans (tokensOf source) (diagnosticsOf source)).Pairwise
        fun first second => decide (first.start ≤ second.start) = true := by
      apply List.pairwise_mergeSort
      · intro first second third hfirst hsecond
        simp only [decide_eq_true_eq] at hfirst hsecond ⊢
        exact UInt32.le_trans hfirst hsecond
      · intro first second
        simpa using UInt32.le_total first.start second.start
    simpa using hmerge
  have hstrict : ((placedOf source).filterMap Placed.span?).Pairwise
      fun first second => first.start < second.start := by
    refine (Placed.pairwise_start_lt hfits).filterMap _ ?_
    intro first second hlt span hspan other hother
    rw [span?_eq_some hspan, span?_eq_some hother]
    exact hlt
  have hordered := hstrict.imp fun hlt => UInt32.le_of_lt hlt
  refine List.Perm.eq_of_pairwise ?_ hsorted hordered hperm
  -- the starts of the placed lexemes tell their spans apart
  intro first second hfirst hsecond hle hge
  have hstart := UInt32.le_antisymm hle hge
  have hnodup : (((placedOf source).filterMap Placed.span?).map Span.start).Nodup := by
    rw [List.Nodup, List.pairwise_map]
    exact hstrict.imp UInt32.ne_of_lt
  exact List.inj_on_of_nodup_map hnodup (hperm.mem_iff.mp hfirst) hsecond hstart

/-! ## Nothing is lost -/

theorem tiled_coveredSpans
    {source : List Char}
    (hfits : FitsWords source) :
    Tiled source 0 (coveredSpans (tokensOf source) (diagnosticsOf source)) := by
  rw [coveredSpans_eq hfits]
  have hsource : source = [] ++ Lexeme.textOf (Lexeme.cut source) := by
    rw [Lexeme.textOf_cut, List.nil_append]
  exact tiled_place hfits hsource (Lexeme.separated_cut source)

/-- A token holds the characters of its span, and the end of the input none. -/
theorem lexeme_of_mem_tokensOf
    {source : List Char} {token : Token}
    (hfits : FitsWords source)
    (hmem : token ∈ tokensOf source) :
    token.lexeme.toList = source.extract token.span.start.toNat
      (token.span.start.toNat + token.span.length.toNat) := by
  rcases mem_tokensOf_iff.mp hmem with ⟨placed, hplaced, htoken⟩ | rfl
  · obtain ⟨-, hlexeme, -, hspan⟩ := Placed.token?_eq_some_iff.mp htoken
    obtain ⟨-, rest, hsource, -⟩ := exists_of_mem_placedOf hplaced
    obtain ⟨hstart, hcount, -⟩ := Placed.toNat_of_mem_placedOf hfits hplaced
    rw [hlexeme, hspan, hstart, hcount, String.toList_ofList, List.extract, hsource,
      List.append_assoc, List.drop_left, Nat.add_sub_cancel_left, List.take_left]
  · simp [Token.endOfInput, Span.empty, List.extract]

theorem layout_of_isGap
    {source : List Char} {low high : Nat}
    (hfits : FitsWords source)
    (hgap : IsGap source (coveredSpans (tokensOf source) (diagnosticsOf source)) low high) :
    IsLayout (source.extract low high) (source.drop high) := by
  rcases Nat.eq_or_lt_of_le hgap.ordered with rfl | hlt
  · rw [List.extract, Nat.sub_self, List.take_zero]
    exact .nil
  · exact (tiled_coveredSpans hfits).layout_of_uncovered (Nat.zero_le low) hgap.inside
      hgap.uncovered hgap.maximalBelow hgap.maximalAbove hlt

theorem exists_tokensOf_eq
    {source : List Char}
    (hfits : FitsWords source) :
    ∃ front last, tokensOf source = front ++ [last] ∧
      (∀ token ∈ front, token.kind ≠ .endOfInput) ∧
      last.kind = .endOfInput ∧ last.span.start.toNat = source.length ∧
      last.span.length = 0 := by
  refine ⟨_, _, rfl, ?_, rfl, ?_, rfl⟩
  · intro token htoken
    obtain ⟨placed, -, hplaced⟩ := List.mem_filterMap.mp htoken
    exact kind_ne_endOfInput (Placed.token?_eq_some_iff.mp hplaced).1
  · exact hfits.toNat_length

/-- A scan loses nothing of its source. -/
theorem scan_lossless
    {source : String}
    (hlength : source.length ≤ 4294967294) :
    ∃ result, scan source = .ok result ∧
      Lossless source.toList result.tokens result.reports.toList := by
  have hfits := fitsWords_of_length_le hlength
  obtain ⟨result, hresult, htokens, hdiagnostics⟩ := exists_scan_eq_ok hfits
  refine ⟨result, hresult, ?_⟩
  rw [htokens, hdiagnostics]
  exact
    { spanned := fun diagnostic hmem => span_of_mem_diagnosticsOf hmem
      nonempty := (tiled_coveredSpans hfits).length_pos
      inside := (tiled_coveredSpans hfits).stop_le
      disjoint := (tiled_coveredSpans hfits).pairwise
      lexemes := fun token hmem => lexeme_of_mem_tokensOf hfits hmem
      tokensOrdered := tokensOf_pairwise_start_lt hfits
      diagnosticsOrdered := diagnosticsOf_pairwise_start_lt hfits
      gaps := fun low high hgap => layout_of_isGap hfits hgap
      endOfInput := exists_tokensOf_eq hfits }

/-- A comment between tokens, an error, and an open string at the end. -/
theorem scan_lossless_of_comment :
    "a // b\n@ \"c".length ≤ 4294967294 ∧
      ∃ result, scan "a // b\n@ \"c" = .ok result ∧
        Lossless "a // b\n@ \"c".toList result.tokens result.reports.toList :=
  ⟨by decide, scan_lossless (by decide)⟩

end LoxLexer

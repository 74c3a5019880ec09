import LoxLexer.Proofs.Scan.Run
import Mathlib.Data.List.Basic

/-!
# Bounded lookahead

A lexeme is settled by the two characters after it: whatever comes later does
not make it longer or shorter.  So two sources that begin alike have the same
lexemes in their common beginning, up to the first one that ends within two
characters of where the sources part; and what these lexemes make is the same,
token by token and error by error.
-/

namespace LoxLexer

/-- A span ends two characters or more before an offset. -/
def Span.SettledBy (offset : Nat) (span : Span) : Prop :=
  span.start.toNat + span.length.toNat + 2 ≤ offset

instance (offset : Nat) (span : Span) : Decidable (span.SettledBy offset) :=
  inferInstanceAs (Decidable (span.start.toNat + span.length.toNat + 2 ≤ offset))

/-- The tokens of a scan that are settled by an offset, without the end of the
input. -/
def Scan.settledTokens (offset : Nat) (result : Scan Log) : List Token :=
  result.tokens.filter fun token => token.span.SettledBy offset ∧ !token.isEnd

/-- The diagnostics of a scan that are settled by an offset. -/
def Scan.settledDiagnostics (offset : Nat) (result : Scan Log) : List Diagnostic :=
  result.reports.toList.filter fun diagnostic =>
    ∃ span ∈ diagnostic.span, span.SettledBy offset

/-! ## Two characters settle a lexeme -/

/-- Where a lexeme stops before two characters, it stops whatever follows
them. -/
theorem Lexeme.Stops.of_two_characters
    {lexeme : Lexeme} {c d : Char} {rest more : List Char}
    (hstops : lexeme.Stops (c :: d :: rest)) :
    lexeme.Stops (c :: d :: more) := by
  cases lexeme with
  | operator mark => exact hstops
  | word letters => exact hstops
  | number whole fraction =>
      cases fraction with
      | none =>
          -- the one lexeme that looks at both: a point, and a digit after it
          refine ⟨hstops.1, ?_⟩
          intro e others heq
          obtain ⟨rfl, htail⟩ := List.cons.inj heq
          obtain ⟨rfl, -⟩ := List.cons.inj htail
          exact hstops.2 d rest rfl
      | some places => exact hstops
  | comment body => exact hstops
  | unterminated body => exact absurd hstops (List.cons_ne_nil c (d :: rest))
  | string body => trivial
  | blank e => trivial
  | lineFeed => trivial
  | unexpected e => trivial

theorem Lexeme.Stops.of_append
    {lexeme : Lexeme} {shared first : List Char}
    (hstops : lexeme.Stops (shared ++ first))
    (hlength : 2 ≤ shared.length)
    (second : List Char) :
    lexeme.Stops (shared ++ second) := by
  match shared with
  | [] => simp at hlength
  | [c] => simp at hlength
  | c :: d :: others => exact hstops.of_two_characters

/-! ## The settled lexemes of a common beginning -/

/-- A placed lexeme ends two characters or more before an offset. -/
def Placed.SettledBy (offset : Nat) (placed : Placed) : Prop :=
  placed.before.length + placed.lexeme.text.length + 2 ≤ offset

instance (offset : Nat) (placed : Placed) : Decidable (placed.SettledBy offset) :=
  inferInstanceAs (Decidable (placed.before.length + placed.lexeme.text.length + 2 ≤ offset))

/-- A text begins with a lexeme that is settled within it. -/
structure BeginsSettled (shared tail : List Char) (lexeme : Lexeme) (rest : List Char) :
    Prop where
  text : shared = lexeme.text ++ rest
  settled : 2 ≤ rest.length
  valid : lexeme.Valid
  stops : lexeme.Stops (rest ++ tail)

/-- What settles a lexeme in one continuation settles it in every other. -/
theorem BeginsSettled.of_continuation
    {shared first rest : List Char} {lexeme : Lexeme}
    (hbegins : BeginsSettled shared first lexeme rest)
    (second : List Char) :
    BeginsSettled shared second lexeme rest where
  text := hbegins.text
  settled := hbegins.settled
  valid := hbegins.valid
  stops := hbegins.stops.of_append hbegins.settled second

theorem BeginsSettled.cut_eq
    {shared tail rest : List Char} {lexeme : Lexeme}
    (hbegins : BeginsSettled shared tail lexeme rest) :
    Lexeme.cut (shared ++ tail) = lexeme :: Lexeme.cut (rest ++ tail) := by
  rw [hbegins.text, List.append_assoc]
  exact Lexeme.cut_append hbegins.valid hbegins.stops

/-- If any lexeme is settled within a text, the first one is. -/
theorem exists_beginsSettled
    {before shared tail : List Char} {placed : Placed}
    (hmem : placed ∈ place before (Lexeme.cut (shared ++ tail)))
    (hsettled : placed.SettledBy (before ++ shared).length) :
    ∃ lexeme rest, BeginsSettled shared tail lexeme rest := by
  have hseparated := Lexeme.separated_cut (shared ++ tail)
  have htext := Lexeme.textOf_cut (shared ++ tail)
  cases hcut : Lexeme.cut (shared ++ tail) with
  | nil =>
      rw [hcut] at hmem
      cases hmem
  | cons lexeme others =>
      rw [hcut] at hmem hseparated htext
      obtain ⟨hvalid, hstops, -⟩ := hseparated
      rw [Lexeme.textOf_cons] at htext
      -- the first lexeme ends no later than the settled one
      have hends : before.length + lexeme.text.length + 2 ≤ (before ++ shared).length := by
        rw [Placed.SettledBy] at hsettled
        rcases List.mem_cons.mp hmem with rfl | hlater
        · exact hsettled
        · obtain ⟨front, -, -, hbefore⟩ := exists_of_mem_place hlater
          rw [hbefore, List.length_append, List.length_append] at hsettled
          omega
      rw [List.length_append] at hends
      have hwhole : lexeme.text <+: shared ++ tail := by
        rw [← htext]
        exact List.prefix_append _ _
      obtain ⟨rest, rfl⟩ : lexeme.text <+: shared :=
        List.prefix_of_prefix_length_le hwhole (List.prefix_append _ _) (by omega)
      rw [List.append_assoc] at htext
      rw [List.append_cancel_left htext] at hstops
      rw [List.length_append] at hends
      exact ⟨lexeme, rest, rfl, by omega, hvalid, hstops⟩

/-- The settled lexemes of a common beginning are the same. -/
theorem filter_settledBy_place
    (before shared first second : List Char) :
    (place before (Lexeme.cut (shared ++ first))).filter
        (Placed.SettledBy (before ++ shared).length) =
      (place before (Lexeme.cut (shared ++ second))).filter
        (Placed.SettledBy (before ++ shared).length) := by
  by_cases hbegins : ∃ lexeme rest, BeginsSettled shared first lexeme rest
  · obtain ⟨lexeme, rest, hbegins⟩ := hbegins
    have hother := hbegins.of_continuation second
    have hpos := List.length_pos_iff.mpr (Lexeme.text_ne_nil_of_valid hbegins.valid)
    have hlater := filter_settledBy_place (before ++ lexeme.text) rest first second
    rw [List.append_assoc, ← hbegins.text] at hlater
    rw [hbegins.cut_eq, hother.cut_eq, place, place, List.filter_cons, List.filter_cons,
      hlater]
  · have hnone : ∀ tail, (∀ lexeme rest, ¬ BeginsSettled shared tail lexeme rest) →
        (place before (Lexeme.cut (shared ++ tail))).filter
          (Placed.SettledBy (before ++ shared).length) = [] := by
      intro tail htail
      rw [List.filter_eq_nil_iff]
      intro placed hmem hsettled
      obtain ⟨lexeme, rest, hbegins⟩ := exists_beginsSettled hmem (of_decide_eq_true hsettled)
      exact htail lexeme rest hbegins
    rw [hnone first, hnone second]
    · intro lexeme rest hother
      exact hbegins ⟨lexeme, rest, hother.of_continuation first⟩
    · intro lexeme rest hfirst
      exact hbegins ⟨lexeme, rest, hfirst⟩
termination_by shared.length
decreasing_by
  rw [hbegins.text, List.length_append]
  omega

/-! ## What settled lexemes make -/

section

variable {source : List Char}

theorem settledBy_span_iff
    {placed : Placed} {offset : Nat}
    (hfits : FitsWords source)
    (hmem : placed ∈ placedOf source) :
    placed.span.SettledBy offset ↔ placed.SettledBy offset := by
  obtain ⟨hstart, hlength, -⟩ := Placed.toNat_of_mem_placedOf hfits hmem
  rw [Span.SettledBy, Placed.SettledBy, hstart, hlength]

theorem filter_settledBy_tokensOf
    (offset : Nat)
    (hfits : FitsWords source) :
    (tokensOf source).filter (fun token => token.span.SettledBy offset ∧ !token.isEnd) =
      ((placedOf source).filter (Placed.SettledBy offset)).filterMap Placed.token? := by
  have hmakes : ∀ placed ∈ placedOf source,
      placed.token?.filter (fun token => token.span.SettledBy offset) =
        if placed.SettledBy offset then placed.token? else none := by
    intro placed hmem
    cases htoken : placed.token? with
    | none => simp
    | some token =>
        have hspan := (Placed.token?_eq_some_iff.mp htoken).2.2.2
        simp [Option.filter_some, hspan, settledBy_span_iff hfits hmem]
  simp only [Bool.decide_and, Bool.decide_eq_true]
  rw [← List.filter_filter, filter_not_isEnd_tokensOf, List.filter_filterMap,
    List.filterMap_filter]
  simpa using List.filterMap_congr hmakes

theorem filter_settledBy_diagnosticsOf
    (offset : Nat)
    (hfits : FitsWords source) :
    (diagnosticsOf source).filter
        (fun diagnostic => ∃ span ∈ diagnostic.span, span.SettledBy offset) =
      ((placedOf source).filter (Placed.SettledBy offset)).filterMap Placed.diagnostic? := by
  have hmakes : ∀ placed ∈ placedOf source,
      placed.diagnostic?.filter
          (fun diagnostic => ∃ span ∈ diagnostic.span, span.SettledBy offset) =
        if placed.SettledBy offset then placed.diagnostic? else none := by
    intro placed hmem
    cases hdiagnostic : placed.diagnostic? with
    | none => simp
    | some diagnostic =>
        obtain ⟨template, arguments, -, rfl⟩ := Placed.diagnostic?_eq_some_iff.mp hdiagnostic
        simp [Option.filter_some, Diagnostic.spanning, settledBy_span_iff hfits hmem]
  have hplaced : diagnosticsOf source = (placedOf source).filterMap Placed.diagnostic? := rfl
  rw [hplaced, List.filter_filterMap, List.filterMap_filter]
  simpa using List.filterMap_congr hmakes

end

/-- What a scan finds depends on no more than the two characters after it: two
sources that begin alike have the same tokens and the same diagnostics up to two
characters before they part. -/
theorem scan_settled
    {shared first second : String}
    (hfirst : (shared ++ first).length ≤ 4294967294)
    (hsecond : (shared ++ second).length ≤ 4294967294) :
    ∃ one two, scan (shared ++ first) = .ok one ∧ scan (shared ++ second) = .ok two ∧
      one.settledTokens shared.length = two.settledTokens shared.length ∧
      one.settledDiagnostics shared.length = two.settledDiagnostics shared.length := by
  have hone := fitsWords_of_length_le hfirst
  have htwo := fitsWords_of_length_le hsecond
  obtain ⟨one, honeScan, honeTokens, honeDiagnostics⟩ := exists_scan_eq_ok hone
  obtain ⟨two, htwoScan, htwoTokens, htwoDiagnostics⟩ := exists_scan_eq_ok htwo
  have hplaced : (placedOf (shared ++ first).toList).filter
        (Placed.SettledBy shared.length) =
      (placedOf (shared ++ second).toList).filter (Placed.SettledBy shared.length) := by
    have hall := filter_settledBy_place [] shared.toList first.toList second.toList
    rw [String.toList_append, String.toList_append, ← String.length_toList]
    exact hall
  refine ⟨one, two, honeScan, htwoScan, ?_, ?_⟩
  · rw [Scan.settledTokens, Scan.settledTokens, honeTokens, htwoTokens,
      filter_settledBy_tokensOf _ hone, filter_settledBy_tokensOf _ htwo, hplaced]
  · rw [Scan.settledDiagnostics, Scan.settledDiagnostics, honeDiagnostics, htwoDiagnostics,
      filter_settledBy_diagnosticsOf _ hone, filter_settledBy_diagnosticsOf _ htwo, hplaced]

/-- A number and a point, with a digit or the end of the input after them, and an
error before them. -/
theorem scan_settled_of_point :
    ("@\"a\" 3." ++ "5").length ≤ 4294967294 ∧ ("@\"a\" 3." ++ "").length ≤ 4294967294 ∧
      ∃ one two, scan ("@\"a\" 3." ++ "5") = .ok one ∧ scan ("@\"a\" 3." ++ "") = .ok two ∧
        one.settledTokens "@\"a\" 3.".length = two.settledTokens "@\"a\" 3.".length ∧
        one.settledDiagnostics "@\"a\" 3.".length =
          two.settledDiagnostics "@\"a\" 3.".length :=
  ⟨by decide, by decide, scan_settled (by decide) (by decide)⟩

end LoxLexer

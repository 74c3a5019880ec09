import LoxLexer.Proofs.Related
import LoxLexer.Proofs.Scan.Walk

/-!
# Recovery from unexpected characters

A scan goes on after an unexpected character as if a blank stood in its place.
With blanks put there the source makes the same tokens, each where it was, and
no diagnostics but that of a string left open.

The reason is that no lexeme looks at an unexpected character in another way
than at a blank: where it stops before the one it stops before the other.
-/

namespace LoxLexer

/-- A diagnostic cites the character at an offset as unexpected. -/
def Diagnostic.CitesUnexpected (diagnostic : Diagnostic) (offset : Nat) : Prop :=
  diagnostic.code = 1001 ∧ ∃ span ∈ diagnostic.span,
    span.start.toNat ≤ offset ∧ offset < span.start.toNat + span.length.toNat

instance (diagnostic : Diagnostic) (offset : Nat) :
    Decidable (diagnostic.CitesUnexpected offset) :=
  inferInstanceAs (Decidable (diagnostic.code = 1001 ∧ ∃ span ∈ diagnostic.span,
    span.start.toNat ≤ offset ∧ offset < span.start.toNat + span.length.toNat))

/-- A source with a blank in place of each character that is cited as
unexpected. -/
def withBlanks (diagnostics : List Diagnostic) (source : List Char) : List Char :=
  source.mapIdx fun offset c =>
    if ∃ diagnostic ∈ diagnostics, diagnostic.CitesUnexpected offset then ' ' else c

namespace Lexeme

/-- A lexeme with a blank in place of an unexpected character. -/
def blanked : Lexeme → Lexeme
  | .unexpected _ => .blank ' '
  | lexeme => lexeme

/-- The same character, or a blank in place of one that begins nothing. -/
inductive Blanks : Char → Char → Prop
  | same (c : Char) : Blanks c c
  | blank {c : Char} : BeginsNothing c → Blanks c ' '

/-! ## Stopping before blanks -/

theorem Blanks.eq_of_ne
    {c d : Char}
    (hblanks : Blanks c d)
    (hne : d ≠ ' ') :
    c = d := by
  cases hblanks with
  | same => rfl
  | blank => exact absurd rfl hne

/-- A class without the blank is avoided by what is put in its place. -/
theorem Blanks.avoids
    {p : Char → Bool} {c d : Char}
    (hblanks : Blanks c d)
    (hp : p ' ' = false)
    (hc : p c = false) :
    p d = false := by
  cases hblanks with
  | same => exact hc
  | blank => exact hp

theorem headAvoids_of_blanks
    {p : Char → Bool} {rest after : List Char}
    (havoids : HeadAvoids p rest)
    (hp : p ' ' = false)
    (hblanks : List.Forall₂ Blanks rest after) :
    HeadAvoids p after := by
  cases hblanks with
  | nil => exact headAvoids_nil p
  | cons hhead _ =>
      rw [headAvoids_cons_iff] at havoids ⊢
      exact hhead.avoids hp havoids

theorem head?_ne_of_blanks
    {rest after : List Char} {c : Char}
    (hhead : rest.head? ≠ some c)
    (hc : c ≠ ' ')
    (hblanks : List.Forall₂ Blanks rest after) :
    after.head? ≠ some c := by
  cases hblanks with
  | nil => exact hhead
  | cons hfirst _ =>
      intro heq
      obtain rfl := Option.some.inj heq
      obtain rfl := hfirst.eq_of_ne hc
      exact hhead rfl

/-- A lexeme that stops before a text stops before it with blanks in place of
characters that begin nothing. -/
theorem Stops.of_blanks
    {lexeme : Lexeme} {rest after : List Char}
    (hstops : lexeme.Stops rest)
    (hblanks : List.Forall₂ Blanks rest after) :
    lexeme.Stops after := by
  cases lexeme with
  | operator mark =>
      exact ⟨fun hsome => head?_ne_of_blanks (hstops.1 hsome) (by decide) hblanks,
        fun hslash => head?_ne_of_blanks (hstops.2 hslash) (by decide) hblanks⟩
  | word letters => exact headAvoids_of_blanks hstops (by decide) hblanks
  | number whole fraction =>
      cases fraction with
      | none =>
          refine ⟨headAvoids_of_blanks hstops.1 (by decide) hblanks, ?_⟩
          rintro d others rfl
          -- the point is no blank, so it was there before
          cases hblanks with
          | @cons c _ _ _ hpoint hothers =>
              obtain rfl := hpoint.eq_of_ne (by decide)
              cases hothers with
              | cons hdigit _ => exact hdigit.avoids (by decide) (hstops.2 _ _ rfl)
      | some places => exact headAvoids_of_blanks hstops (by decide) hblanks
  | comment body =>
      cases hblanks with
      | nil => exact hstops
      | cons hhead _ =>
          have hfeed := headAvoids_cons_iff.mp hstops
          cases hhead with
          | same => exact headAvoids_cons_iff.mpr hfeed
          | blank hnothing =>
              exact absurd hnothing.not_feed (by simpa [isCommentPart] using hfeed)
  | unterminated body =>
      obtain rfl : rest = [] := hstops
      cases hblanks
      rfl
  | string body => trivial
  | blank c => trivial
  | lineFeed => trivial
  | unexpected c => trivial

/-! ## The cut of a source with blanks -/

theorem forall₂_blanks_self (text : List Char) : List.Forall₂ Blanks text text :=
  List.forall₂_same.mpr fun c _ => .same c

theorem forall₂_blanks_text
    {lexeme : Lexeme}
    (hvalid : lexeme.Valid) :
    List.Forall₂ Blanks lexeme.text lexeme.blanked.text := by
  cases lexeme with
  | unexpected c => exact .cons (.blank hvalid) .nil
  | _ => exact forall₂_blanks_self _

theorem forall₂_blanks_textOf
    {lexemes : List Lexeme}
    (hseparated : Separated lexemes) :
    List.Forall₂ Blanks (textOf lexemes) (textOf (lexemes.map blanked)) := by
  induction lexemes with
  | nil => exact .nil
  | cons lexeme others ih =>
      obtain ⟨hvalid, -, hothers⟩ := hseparated
      exact List.rel_append (forall₂_blanks_text hvalid) (ih hothers)

theorem valid_blanked
    {lexeme : Lexeme}
    (hvalid : lexeme.Valid) :
    lexeme.blanked.Valid := by
  cases lexeme with
  | unexpected c => exact rfl
  | _ => exact hvalid

theorem Stops.blanked
    {lexeme : Lexeme} {rest : List Char}
    (hstops : lexeme.Stops rest) :
    lexeme.blanked.Stops rest := by
  cases lexeme with
  | unexpected c => trivial
  | _ => exact hstops

theorem Separated.blanked
    {lexemes : List Lexeme}
    (hseparated : Separated lexemes) :
    Separated (lexemes.map blanked) := by
  induction lexemes with
  | nil => trivial
  | cons lexeme others ih =>
      obtain ⟨hvalid, hstops, hothers⟩ := hseparated
      exact ⟨valid_blanked hvalid, (hstops.of_blanks (forall₂_blanks_textOf hothers)).blanked,
        ih hothers⟩

end Lexeme

/-! ## The source with blanks -/

/-- An unexpected character stands at an offset. -/
def UnexpectedAt (placed : List Placed) (offset : Nat) : Prop :=
  ∃ found ∈ placed, (∃ c, found.lexeme = .unexpected c) ∧ found.before.length = offset

theorem Placed.exists_unexpected_of_code
    {placed : Placed} {diagnostic : Diagnostic}
    (hdiagnostic : placed.diagnostic? = some diagnostic)
    (hcode : diagnostic.code = 1001) :
    ∃ c, placed.lexeme = .unexpected c := by
  obtain ⟨before, lexeme⟩ := placed
  cases lexeme with
  | unexpected c => exact ⟨c, rfl⟩
  | unterminated body =>
      obtain rfl := Option.some.inj hdiagnostic
      have hother : Template.unterminatedString.code = 1001 := hcode
      exact absurd hother (by decide)
  | _ => cases hdiagnostic

/-- The offsets that the diagnostics cite are those of the unexpected
characters. -/
theorem exists_citesUnexpected_iff
    {source : List Char} {offset : Nat}
    (hfits : FitsWords source) :
    (∃ diagnostic ∈ diagnosticsOf source, diagnostic.CitesUnexpected offset) ↔
      UnexpectedAt (placedOf source) offset := by
  constructor
  · rintro ⟨diagnostic, hmem, hcode, span, hspan, hle, hlt⟩
    obtain ⟨placed, hplaced, hmakes⟩ := mem_diagnosticsOf_iff.mp hmem
    obtain ⟨c, hlexeme⟩ := Placed.exists_unexpected_of_code hmakes hcode
    obtain ⟨template, arguments, -, rfl⟩ := Placed.diagnostic?_eq_some_iff.mp hmakes
    obtain rfl := Option.some.inj hspan
    obtain ⟨hstart, hlength, -⟩ := Placed.toNat_of_mem_placedOf hfits hplaced
    have hone : placed.lexeme.text.length = 1 := by
      rw [hlexeme]
      rfl
    refine ⟨placed, hplaced, ⟨c, hlexeme⟩, ?_⟩
    omega
  · rintro ⟨⟨before, lexeme⟩, hplaced, ⟨c, rfl⟩, rfl⟩
    obtain ⟨hstart, hlength, -⟩ := Placed.toNat_of_mem_placedOf hfits hplaced
    refine ⟨_, mem_diagnosticsOf_iff.mpr ⟨_, hplaced, rfl⟩, rfl, _, rfl, ?_, ?_⟩
    · rw [hstart]
    · rw [hstart, hlength]
      exact Nat.lt_succ_self before.length

theorem unexpectedAt_cons_iff
    {before : List Char} {lexeme : Lexeme} {others : List Placed} {offset : Nat} :
    UnexpectedAt (⟨before, lexeme⟩ :: others) offset ↔
      ((∃ c, lexeme = .unexpected c) ∧ before.length = offset) ∨
        UnexpectedAt others offset := by
  simp [UnexpectedAt]

theorem length_le_of_unexpectedAt
    {before : List Char} {lexemes : List Lexeme} {offset : Nat}
    (hunexpected : UnexpectedAt (place before lexemes) offset) :
    before.length ≤ offset := by
  obtain ⟨placed, hplaced, -, rfl⟩ := hunexpected
  obtain ⟨front, -, -, hbefore⟩ := exists_of_mem_place hplaced
  rw [hbefore, List.length_append]
  exact Nat.le_add_right _ _

/-- From a place on, the offsets cited are those of the unexpected characters of
a row that stands there. -/
def CitesExactly (cited : Nat → Prop) (before : List Char) (lexemes : List Lexeme) : Prop :=
  ∀ offset, before.length ≤ offset →
    (cited offset ↔ UnexpectedAt (place before lexemes) offset)

section

variable {cited : Nat → Prop} {before : List Char} {lexeme : Lexeme} {others : List Lexeme}

theorem CitesExactly.first
    (hcited : CitesExactly cited before (lexeme :: others)) :
    ∀ index < lexeme.text.length,
      (cited (before.length + index) ↔ ∃ c, lexeme = .unexpected c) := by
  intro index hindex
  rw [hcited _ (Nat.le_add_right _ _), place, unexpectedAt_cons_iff]
  constructor
  · rintro (⟨hunexpected, -⟩ | hlater)
    · exact hunexpected
    · -- what comes later starts beyond this lexeme
      have hle := length_le_of_unexpectedAt hlater
      rw [List.length_append] at hle
      omega
  · rintro ⟨c, rfl⟩
    have hone : index < 1 := hindex
    refine Or.inl ⟨⟨c, rfl⟩, ?_⟩
    omega

theorem CitesExactly.later
    (hcited : CitesExactly cited before (lexeme :: others))
    (hvalid : lexeme.Valid) :
    CitesExactly cited (before ++ lexeme.text) others := by
  intro offset hle
  have hpos := List.length_pos_iff.mpr (Lexeme.text_ne_nil_of_valid hvalid)
  rw [List.length_append] at hle
  rw [hcited offset (by omega), place, unexpectedAt_cons_iff]
  constructor
  · rintro (⟨-, heq⟩ | hlater)
    · omega
    · exact hlater
  · exact Or.inr

/-- Blanks put in place of the characters of a lexeme, if they are cited. -/
theorem mapIdx_text
    [DecidablePred cited]
    (hcited : ∀ index < lexeme.text.length,
      (cited (before.length + index) ↔ ∃ c, lexeme = .unexpected c)) :
    lexeme.text.mapIdx (fun index c => if cited (before.length + index) then ' ' else c) =
      lexeme.blanked.text := by
  by_cases hunexpected : ∃ c, lexeme = .unexpected c
  · obtain ⟨c, rfl⟩ := hunexpected
    have hfirst : cited (before.length + 0) := (hcited 0 Nat.one_pos).mpr ⟨c, rfl⟩
    simp only [Lexeme.text, List.mapIdx_cons, List.mapIdx_nil, if_pos hfirst,
      Lexeme.blanked]
  · have hsame : lexeme.blanked = lexeme := by
      cases lexeme with
      | unexpected c => exact absurd ⟨c, rfl⟩ hunexpected
      | _ => rfl
    rw [hsame, List.mapIdx_eq_iff]
    intro index
    cases hc : lexeme.text[index]? with
    | none => rfl
    | some c =>
        obtain ⟨hindex, -⟩ := List.getElem?_eq_some_iff.mp hc
        have hnot : ¬ cited (before.length + index) :=
          fun h => hunexpected ((hcited index hindex).mp h)
        rw [Option.map_some, if_neg hnot]

/-- Blanks put at the offsets of the unexpected characters of a row make the row
with blanks. -/
theorem mapIdx_textOf
    {lexemes : List Lexeme} [DecidablePred cited]
    (hseparated : Lexeme.Separated lexemes)
    (hcited : CitesExactly cited before lexemes) :
    (Lexeme.textOf lexemes).mapIdx
        (fun index c => if cited (before.length + index) then ' ' else c) =
      Lexeme.textOf (lexemes.map Lexeme.blanked) := by
  induction lexemes generalizing before with
  | nil => rfl
  | cons lexeme others ih =>
      obtain ⟨hvalid, -, hothers⟩ := hseparated
      have hoffset : ∀ index, before.length + (index + lexeme.text.length) =
          (before ++ lexeme.text).length + index := by
        intro index
        rw [List.length_append]
        omega
      rw [Lexeme.textOf_cons, List.mapIdx_append, List.map_cons, Lexeme.textOf_cons,
        mapIdx_text hcited.first, ← ih hothers (hcited.later hvalid)]
      simp only [hoffset]

end

theorem withBlanks_diagnosticsOf
    {source : List Char}
    (hfits : FitsWords source) :
    withBlanks (diagnosticsOf source) source =
      Lexeme.textOf ((Lexeme.cut source).map Lexeme.blanked) := by
  have hcited : CitesExactly
      (fun offset => ∃ diagnostic ∈ diagnosticsOf source, diagnostic.CitesUnexpected offset)
      [] (Lexeme.cut source) :=
    fun offset _ => exists_citesUnexpected_iff hfits
  have htext := mapIdx_textOf (Lexeme.separated_cut source) hcited
  simpa [withBlanks, Lexeme.textOf_cut] using htext

theorem cut_withBlanks
    {source : List Char}
    (hfits : FitsWords source) :
    Lexeme.cut (withBlanks (diagnosticsOf source) source) =
      (Lexeme.cut source).map Lexeme.blanked := by
  rw [withBlanks_diagnosticsOf hfits]
  exact Lexeme.cut_textOf (Lexeme.separated_cut source).blanked

/-! ## What the source with blanks makes -/

namespace Placed

/-- The lexeme with a blank in place of an unexpected character, at the same
offset and on the same line. -/
structure BlankedAs (placed blanked : Placed) : Prop where
  lexeme : blanked.lexeme = placed.lexeme.blanked
  length : blanked.before.length = placed.before.length
  feeds : blanked.before.count '\n' = placed.before.count '\n'

variable {placed blanked : Placed}

theorem BlankedAs.token?_eq
    (hblanked : BlankedAs placed blanked) :
    blanked.token? = placed.token? := by
  obtain ⟨hlexeme, hlength, hfeeds⟩ := hblanked
  obtain ⟨before, lexeme⟩ := placed
  unfold Placed.token? Placed.line Placed.span Placed.start
  rw [hlexeme, hlength, hfeeds]
  cases lexeme <;> rfl

theorem BlankedAs.diagnostic?_eq
    (hblanked : BlankedAs placed blanked) :
    blanked.diagnostic? =
      placed.diagnostic?.filter fun diagnostic => diagnostic.code ≠ 1001 := by
  obtain ⟨hlexeme, hlength, hfeeds⟩ := hblanked
  obtain ⟨before, lexeme⟩ := placed
  unfold Placed.diagnostic? Placed.line Placed.span Placed.start
  rw [hlexeme, hlength, hfeeds]
  cases lexeme <;> rfl

end Placed

theorem length_text_blanked (lexeme : Lexeme) :
    lexeme.blanked.text.length = lexeme.text.length := by
  cases lexeme <;> rfl

theorem count_text_blanked
    {lexeme : Lexeme}
    (hvalid : lexeme.Valid) :
    lexeme.blanked.text.count '\n' = lexeme.text.count '\n' := by
  cases lexeme with
  | unexpected c => simp [Lexeme.blanked, Lexeme.text, hvalid.not_feed]
  | _ => rfl

theorem forall₂_place_blanked
    {before after : List Char} {lexemes : List Lexeme}
    (hseparated : Lexeme.Separated lexemes)
    (hlength : after.length = before.length)
    (hfeeds : after.count '\n' = before.count '\n') :
    List.Forall₂ Placed.BlankedAs (place before lexemes)
      (place after (lexemes.map Lexeme.blanked)) := by
  induction lexemes generalizing before after with
  | nil => exact .nil
  | cons lexeme others ih =>
      obtain ⟨hvalid, -, hothers⟩ := hseparated
      refine .cons ⟨rfl, hlength, hfeeds⟩ (ih hothers ?_ ?_)
      · rw [List.length_append, List.length_append, hlength, length_text_blanked]
      · rw [List.count_append, List.count_append, hfeeds, count_text_blanked hvalid]

section

variable {source : List Char}

theorem count_textOf_blanked
    {lexemes : List Lexeme}
    (hseparated : Lexeme.Separated lexemes) :
    (Lexeme.textOf (lexemes.map Lexeme.blanked)).count '\n' =
      (Lexeme.textOf lexemes).count '\n' := by
  induction lexemes with
  | nil => rfl
  | cons lexeme others ih =>
      obtain ⟨hvalid, -, hothers⟩ := hseparated
      rw [List.map_cons, Lexeme.textOf_cons, Lexeme.textOf_cons, List.count_append,
        List.count_append, count_text_blanked hvalid, ih hothers]

theorem count_withBlanks
    (hfits : FitsWords source) :
    (withBlanks (diagnosticsOf source) source).count '\n' = source.count '\n' := by
  rw [withBlanks_diagnosticsOf hfits, count_textOf_blanked (Lexeme.separated_cut source),
    Lexeme.textOf_cut]

theorem length_withBlanks (diagnostics : List Diagnostic) (source : List Char) :
    (withBlanks diagnostics source).length = source.length :=
  List.length_mapIdx

theorem forall₂_placedOf_withBlanks
    (hfits : FitsWords source) :
    List.Forall₂ Placed.BlankedAs (placedOf source)
      (placedOf (withBlanks (diagnosticsOf source) source)) := by
  rw [placedOf, placedOf, cut_withBlanks hfits]
  exact forall₂_place_blanked (Lexeme.separated_cut source) rfl rfl

theorem tokensOf_withBlanks
    (hfits : FitsWords source) :
    tokensOf (withBlanks (diagnosticsOf source) source) = tokensOf source := by
  have hplaced := filterMap_eq_of_forall₂ (forall₂_placedOf_withBlanks hfits)
    fun _ _ hblanked => hblanked.token?_eq
  rw [placedOf, placedOf] at hplaced
  rw [tokensOf, tokensOf, tokensFrom, tokensFrom, hplaced, List.nil_append, List.nil_append,
    length_withBlanks, count_withBlanks hfits]

theorem diagnosticsOf_withBlanks
    (hfits : FitsWords source) :
    diagnosticsOf (withBlanks (diagnosticsOf source) source) =
      (diagnosticsOf source).filter fun diagnostic => diagnostic.code ≠ 1001 := by
  have hplaced := filterMap_eq_of_forall₂ (forall₂_placedOf_withBlanks hfits)
    fun _ _ hblanked => hblanked.diagnostic?_eq
  rw [← List.filter_filterMap] at hplaced
  exact hplaced

end

/-- With blanks in place of its unexpected characters a source is scanned to the
same tokens, and no diagnostic is left but that of an open string. -/
theorem scan_withBlanks
    {source : String}
    (hlength : source.length ≤ 4294967294) :
    ∃ result recovered, scan source = .ok result ∧
      scan (String.ofList (withBlanks result.reports.toList source.toList)) =
        .ok recovered ∧
      recovered.tokens = result.tokens ∧
      recovered.reports.toList =
        (result.reports.toList.filter fun diagnostic => diagnostic.code ≠ 1001) ∧
      recovered.reports.toList.length ≤ 1 ∧
      ∀ diagnostic ∈ recovered.reports.toList, diagnostic.code = 1002 := by
  have hfits := fitsWords_of_length_le hlength
  obtain ⟨result, hresult, htokens, hdiagnostics⟩ := exists_scan_eq_ok hfits
  have hblanks : FitsWords
      (String.ofList (withBlanks result.reports.toList source.toList)).toList := by
    rw [FitsWords, String.toList_ofList, length_withBlanks]
    exact hfits
  obtain ⟨recovered, hrecovered, hsame, hleft⟩ := exists_scan_eq_ok hblanks
  rw [String.toList_ofList, hdiagnostics] at hsame hleft
  rw [diagnosticsOf_withBlanks hfits] at hleft
  -- a walk through the source tells how many diagnostics are left
  have hopen := Walk.filter_diagnostics .code [] source.toList
  rw [← Walk.diagnosticsFrom_eq, ← diagnosticsOf] at hopen
  refine ⟨result, recovered, hresult, hrecovered, ?_, ?_, ?_, ?_⟩
  · rw [hsame, htokens, tokensOf_withBlanks hfits]
  · rw [hleft, hdiagnostics]
  · rw [hleft, hopen]
    exact Option.length_toList_le
  · intro diagnostic hdiagnostic
    rw [hleft, hopen] at hdiagnostic
    exact Walk.code_of_lastMode (Option.mem_toList.mp hdiagnostic)

/-- Unexpected characters after a number and its point, between two letters, in
a string, and before a string left open. -/
theorem scan_withBlanks_of_unexpected :
    "3.@4 a#b\"@\"$\"@".length ≤ 4294967294 ∧
      ∃ result recovered, scan "3.@4 a#b\"@\"$\"@" = .ok result ∧
        scan (String.ofList
          (withBlanks result.reports.toList "3.@4 a#b\"@\"$\"@".toList)) = .ok recovered ∧
        recovered.tokens = result.tokens ∧
        recovered.reports.toList =
          (result.reports.toList.filter fun diagnostic => diagnostic.code ≠ 1001) ∧
        recovered.reports.toList.length ≤ 1 ∧
        ∀ diagnostic ∈ recovered.reports.toList, diagnostic.code = 1002 :=
  ⟨by decide, scan_withBlanks (by decide)⟩

end LoxLexer

import LoxLexer.Proofs.Diagnostic.Message
import LoxLexer.Proofs.Report.Erasure
import LoxLexer.Proofs.Report.Pointing
import LoxLexer.Proofs.Token.DumpLines

/-!
# Reports of a single line

A source without a line feed is one line, and every spot of it is on that line.
So all its diagnostics are on line 1, and a report of one is three lines long:
its header, the source after its number, and the carets.  In any color these
lines begin with a bracket, a digit and a blank, which tells each of them from a
tally.
-/

namespace LoxLexer

/-! ## Spots of a single line -/

namespace Spot

variable {spot : Spot}

theorem front_eq_nil_of_noFeed
    (hfeed : '\n' ∉ spot.source) :
    spot.front = [] :=
  spot.front_wholeLines.eq_nil_of_noFeed fun hmem => hfeed (List.mem_append_left _ hmem)

theorem line_eq_one_of_noFeed
    (hfeed : '\n' ∉ spot.source) :
    spot.line = 1 := by
  rw [line, front_eq_nil_of_noFeed hfeed, List.count_nil]

theorem text_eq_of_noFeed
    (hfeed : '\n' ∉ spot.source) :
    spot.text = spot.source := by
  have hfront := front_eq_nil_of_noFeed hfeed
  cases hafter : spot.after with
  | none => rw [text, source, hfront, hafter, List.nil_append, lineEnding, List.append_nil]
  | some after =>
      have hmem : '\n' ∈ spot.source := by
        rw [source, hafter, lineEnding]
        exact List.mem_append_right _ (List.mem_append_right _ List.mem_cons_self)
      exact absurd hmem hfeed

end Spot

/-! ## Diagnostics of a single line -/

theorem noFeed_message_of_mem_diagnosticsOf
    {source : List Char} {diagnostic : Diagnostic}
    (hmem : diagnostic ∈ diagnosticsOf source) :
    '\n' ∉ diagnostic.message.toList := by
  obtain ⟨placed, hplaced, hmakes⟩ := mem_diagnosticsOf_iff.mp hmem
  obtain ⟨template, arguments, hmeaning, rfl⟩ := Placed.diagnostic?_eq_some_iff.mp hmakes
  have hvalid := (Placed.standsIn_of_mem_placedOf hplaced).valid
  obtain ⟨before, lexeme⟩ := placed
  cases lexeme with
  | unexpected c =>
      cases hmeaning
      have hnothing : Lexeme.BeginsNothing c := hvalid
      rw [Diagnostic.ofTemplate_unexpectedCharacter]
      simp [Diagnostic.spanning, Ne.symm hnothing.not_feed]
  | unterminated body =>
      cases hmeaning
      rw [Diagnostic.ofTemplate_unterminatedString, Diagnostic.spanning]
      simp
  | _ => cases hmeaning

/-! ## Texts without a tally -/

namespace Report

open Palette

/-- A text of whole lines, none of which is a tally. -/
def TalliesNothing (palette : Palette) (text : List Char) : Prop :=
  ∃ lines : List (List Char), text = lines.flatMap (fun line => line ++ ['\n']) ∧
    ∀ line ∈ lines, '\n' ∉ line ∧ ∀ count, line ≠ (tally palette count).toList

namespace TalliesNothing

variable {palette : Palette} {text other : List Char}

theorem nil : TalliesNothing palette [] :=
  ⟨[], rfl, fun _ hmem => absurd hmem List.not_mem_nil⟩

theorem append
    (htext : TalliesNothing palette text)
    (hother : TalliesNothing palette other) :
    TalliesNothing palette (text ++ other) := by
  obtain ⟨lines, rfl, hlines⟩ := htext
  obtain ⟨more, rfl, hmore⟩ := hother
  refine ⟨lines ++ more, List.flatMap_append.symm, ?_⟩
  intro line hmem
  rcases List.mem_append.mp hmem with hmem | hmem
  · exact hlines line hmem
  · exact hmore line hmem

theorem line
    (hfeed : '\n' ∉ text)
    (htally : ∀ count, text ≠ (tally palette count).toList) :
    TalliesNothing palette (text ++ ['\n']) := by
  refine ⟨[text], by simp, ?_⟩
  intro line hmem
  rw [List.mem_singleton.mp hmem]
  exact ⟨hfeed, htally⟩

theorem join
    {texts : List String}
    (htexts : ∀ text ∈ texts, TalliesNothing palette text.toList) :
    TalliesNothing palette (String.join texts).toList := by
  induction texts with
  | nil => exact nil
  | cons text others ih =>
      rw [List.forall_mem_cons] at htexts
      rw [String.join_cons, String.toList_append]
      exact htexts.1.append (ih htexts.2)

/-- Cut at its line feeds, such a text has no tally among its lines. -/
theorem not_mem_splitOn
    (htext : TalliesNothing palette text)
    (count : Nat) :
    (tally palette count).toList ∉ text.splitOn '\n' := by
  obtain ⟨lines, rfl, hlines⟩ := htext
  rw [splitOn_flatMap fun line hmem => (hlines line hmem).1]
  intro hmem
  rcases List.mem_append.mp hmem with hmem | hmem
  · exact (hlines _ hmem).2 count rfl
  · have hempty := List.mem_singleton.mp hmem
    simp [tally] at hempty

end TalliesNothing

section

variable {palette : Palette} {style : List Char}

theorem noFeed_of_mem_codes
    (hstyle : style = [] ∨ style ∈ codes) :
    '\n' ∉ style := by
  rcases hstyle with rfl | hcode
  · exact List.not_mem_nil
  · obtain ⟨parts, rfl, hparts⟩ := exists_of_mem_codes hcode
    rw [List.mem_cons, not_or]
    exact ⟨by decide, fun hmem => absurd (hparts _ hmem) (by decide)⟩

/-- A line that begins with anything but an F, colors aside, is no tally. -/
theorem ne_tally_of_leaves
    {front left : List Char} {c : Char}
    (hpalette : palette.Invisible)
    (hfront : Leaves front (c :: left))
    (hc : c ≠ 'F')
    (rest : List Char) (count : Nat) :
    front ++ rest ≠ (tally palette count).toList := by
  intro hequal
  have htally := (leaves_tally hpalette count).withoutCodes_eq
  rw [← hequal, hfront, String.toList_append, String.toList_append] at htally
  exact hc (List.cons.inj htally).1

/-- A report of an error on line 1. -/
structure IsOfLineOne (palette : Palette) (report : String) : Prop where
  first : "[line 1] ".toList <+: report.toList
  talliesNothing : TalliesNothing palette report.toList

/-- The header of a diagnostic on line 1 names that line first, and no file. -/
theorem exists_header_eq
    {diagnostic : Diagnostic}
    (hfile : diagnostic.file = none)
    (hline : diagnostic.line = 1)
    (palette : Palette) :
    ∃ rest, (header palette diagnostic).toList = "[line 1] ".toList ++ rest := by
  have hone : (1 : Word).decimal = "1" := by decide
  rw [header, hfile, hline, hone]
  simp only [String.empty_append, String.toList_append, List.append_assoc]
  exact ⟨_, rfl⟩

theorem talliesNothing_header
    {diagnostic : Diagnostic}
    (hpalette : palette.Invisible)
    (hfile : diagnostic.file = none)
    (hline : diagnostic.line = 1)
    (hmessage : '\n' ∉ diagnostic.message.toList) :
    TalliesNothing palette ((header palette diagnostic).toList ++ ['\n']) := by
  apply TalliesNothing.line
  · have hbold := noFeed_of_mem_codes hpalette.bold
    have hred := noFeed_of_mem_codes hpalette.red
    have hcyan := noFeed_of_mem_codes hpalette.cyan
    have hreset := noFeed_of_mem_codes hpalette.reset
    have hnumber : ∀ word : Word, '\n' ∉ word.decimal.toList :=
      fun word => not_mem_decimal (by decide) word.toNat
    have hcode : '\n' ∉ (if diagnostic.code = 0 then ""
        else " " ++ palette.cyan ++ "LOX" ++ diagnostic.code.decimal ++ palette.reset).toList := by
      split
      · decide
      · simp [hcyan, hreset, hnumber]
    simp [header, hfile, hbold, hred, hreset, hnumber, hcode, hmessage]
  · obtain ⟨rest, hrest⟩ := exists_header_eq hfile hline palette
    have hfront : Leaves "[line 1] ".toList "[line 1] ".toList := Leaves.self (by decide)
    rw [hrest]
    exact ne_tally_of_leaves hpalette hfront (by decide) rest

/-- An excerpt of line 1 is that line after its number, and a line that begins with
blanks. -/
theorem talliesNothing_write
    {excerpt : Excerpt}
    (hpalette : palette.Invisible)
    (hline : excerpt.line = 1)
    (htext : '\n' ∉ excerpt.text) :
    TalliesNothing palette (excerpt.write palette).toList := by
  have hred := noFeed_of_mem_codes hpalette.red
  have hgray := noFeed_of_mem_codes hpalette.gray
  have hreset := noFeed_of_mem_codes hpalette.reset
  have hgutter : excerpt.gutter = "1 | " := by
    rw [Excerpt.gutter, hline]
    decide
  have hpad : excerpt.pad = "    ".toList ++
      (excerpt.text.take excerpt.before).map fun c => if c = '\t' then '\t' else ' ' := by
    rw [Excerpt.pad, hgutter]
    rfl
  have hnumber : Leaves (palette.gray.toList ++ "1 | ".toList) "1 | ".toList :=
    (leaves_nil_of_mem hpalette.gray).append (Leaves.self (by decide))
  have hblanks : Leaves "    ".toList "    ".toList := Leaves.self (by decide)
  have hshown : TalliesNothing palette ((palette.gray.toList ++ "1 | ".toList ++
      (palette.reset.toList ++ excerpt.text)) ++ ['\n']) := by
    apply TalliesNothing.line
    · simp [hgray, hreset, htext]
    · exact ne_tally_of_leaves hpalette hnumber (by decide) _
  have hmarker : TalliesNothing palette (("    ".toList ++
      ((excerpt.text.take excerpt.before).map (fun c => if c = '\t' then '\t' else ' ') ++
        (palette.red.toList ++ (List.replicate excerpt.carets '^' ++ palette.reset.toList)))) ++
      ['\n']) := by
    apply TalliesNothing.line
    · have hmarks : '\n' ∉ (excerpt.text.take excerpt.before).map
          fun c => if c = '\t' then '\t' else ' ' := by
        intro hmem
        rcases Excerpt.eq_of_mem_indent hmem with htab | hblank
        · exact absurd htab (by decide)
        · exact absurd hblank (by decide)
      simp only [List.mem_append, not_or]
      exact ⟨by decide, hmarks, hred,
        fun hmem => absurd (List.eq_of_mem_replicate hmem) (by decide), hreset⟩
    · exact ne_tally_of_leaves hpalette hblanks (by decide) _
  have hlines := hshown.append hmarker
  simp only [Excerpt.write, hgutter, hpad, String.toList_append, String.toList_ofList,
    List.append_assoc] at hlines ⊢
  exact hlines

end

end Report

/-- A source without a line feed has all its diagnostics on line 1, and their
reports say so. -/
theorem exists_report_of_noFeed
    {source : List Char} {diagnostic : Diagnostic} {palette : Palette}
    (hfeed : '\n' ∉ source)
    (hfits : FitsWords source)
    (hpalette : palette.Invisible)
    (hmem : diagnostic ∈ diagnosticsOf source) :
    diagnostic.line = 1 ∧ ∃ report,
      Report.ofDiagnostic palette (Page.ofChars source) diagnostic = .ok report ∧
      Report.IsOfLineOne palette report := by
  obtain ⟨placed, hplaced, hmakes⟩ := mem_diagnosticsOf_iff.mp hmem
  obtain ⟨spot, hstands⟩ := (Placed.standsIn_of_mem_placedOf hplaced).exists_standsAt
  have hpoints := hstands.pointsAt_of_error hmakes hfits
  have hreport := hstands.ofDiagnostic_eq_of_error hmakes hfits palette none
  have hfile : diagnostic.file = none := by
    obtain ⟨template, arguments, -, rfl⟩ := Placed.diagnostic?_eq_some_iff.mp hmakes
    rfl
  have hnoFeed : '\n' ∉ spot.source := hstands.source_eq ▸ hfeed
  have hone := Spot.line_eq_one_of_noFeed hnoFeed
  have hline : diagnostic.line = 1 := by
    apply UInt32.toNat_inj.mp
    rw [hpoints.line, hone]
    rfl
  have hsame : { diagnostic with file := none } = diagnostic := by rw [← hfile]
  rw [hsame] at hreport
  refine ⟨hline, _, hreport, ?_, ?_⟩
  · obtain ⟨rest, hrest⟩ := Report.exists_header_eq hfile hline palette
    rw [String.toList_append, String.toList_append, hrest, List.append_assoc, List.append_assoc]
    exact List.prefix_append _ _
  · rw [String.toList_append, String.toList_append]
    apply Report.TalliesNothing.append
    · exact Report.talliesNothing_header hpalette hfile hline
        (noFeed_message_of_mem_diagnosticsOf hmem)
    · apply Report.talliesNothing_write hpalette
      · rw [Spot.excerpt, hone]
        rfl
      · rw [Spot.excerpt, Spot.text_eq_of_noFeed hnoFeed]
        exact hnoFeed

end LoxLexer

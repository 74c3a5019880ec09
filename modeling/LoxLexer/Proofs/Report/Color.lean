import LoxLexer.Proofs.Report.Erasure
import LoxLexer.Proofs.Report.LineLookup

/-!
# Reports in color

Color adds styles to a report and nothing else: without its escape sequences a
report in color is the same text as the report without color, which may hold
escape sequences of its own.  It is the report without color itself if neither the
file, nor the message, nor the line of the source has an escape character
(`color_adds_styles_only`).
-/

namespace LoxLexer
namespace Report

open Palette

/-- Nothing that a report takes over has an escape character: not the file, not the
message, not the line of the source. -/
structure EscapeFree (page : Page) (diagnostic : Diagnostic) : Prop where
  file : ∀ file, diagnostic.file = some file → escape ∉ file.toList
  message : escape ∉ diagnostic.message.toList
  line : ∀ span line, diagnostic.span = some span → page.lineAt? span.start = some line →
    escape ∉ line

theorem erased_eq_self
    {text : String}
    (htext : escape ∉ text.toList) :
    erased text = text := by
  rw [erased, (Leaves.self htext).withoutCodes_eq, String.ofList_toList]

section

variable {page : Page} {diagnostic : Diagnostic}

theorem EscapeFree.escape_not_mem_excerpt
    {excerpt : Excerpt}
    (hfree : EscapeFree page diagnostic)
    (hshown : shown page diagnostic = .ok (some excerpt)) :
    escape ∉ excerpt.text := by
  unfold shown at hshown
  cases hspan : diagnostic.span with
  | none =>
      rw [hspan] at hshown
      cases hshown
  | some span =>
      rw [hspan] at hshown
      exact hfree.line span _ hspan (Excerpt.lineAt?_eq_of_ofSpan? hshown)

/-- Without escape characters a header leaves all of itself. -/
theorem leaves_header_plain
    (hfree : EscapeFree page diagnostic) :
    Leaves (header .plain diagnostic ++ "\n").toList (header .plain diagnostic ++ "\n").toList := by
  have hfile : diagnostic.file.map erased = diagnostic.file := by
    cases hname : diagnostic.file with
    | none => rfl
    | some file => rw [Option.map_some, erased_eq_self (hfree.file file hname)]
  have hleaves := leaves_header (invisible_ofColor false) diagnostic
  rw [hfile, erased_eq_self hfree.message, ofColor, if_neg (by decide)] at hleaves
  rwa [header_plain] at hleaves ⊢

/-- Without an escape character in its line an excerpt leaves all of itself. -/
theorem leaves_write_plain
    {excerpt : Excerpt}
    (htext : escape ∉ excerpt.text) :
    Leaves (excerpt.write .plain).toList (excerpt.write .plain).toList := by
  have hleaves := leaves_write (invisible_ofColor false) excerpt
  rw [(Leaves.self htext).withoutCodes_eq, ofColor, if_neg (by decide)] at hleaves
  have hplain : (excerpt.write .plain).toList =
      excerpt.gutter.toList ++ (excerpt.text ++
        ("\n".toList ++ (excerpt.pad ++ (List.replicate excerpt.carets '^' ++ "\n".toList)))) := by
    simp [Excerpt.write, plain]
  rwa [← hplain] at hleaves

theorem leaves_ofDiagnostic_plain
    {report : String}
    (hfree : EscapeFree page diagnostic)
    (hreport : ofDiagnostic .plain page diagnostic = .ok report) :
    Leaves report.toList report.toList := by
  have hheader := leaves_header_plain hfree
  cases hshown : shown page diagnostic with
  | error fault =>
      rw [ofDiagnostic_of_fault hshown] at hreport
      cases hreport
  | ok excerpt? =>
      cases excerpt? with
      | none =>
          rw [ofDiagnostic_of_nothing hshown] at hreport
          cases hreport
          exact hheader
      | some excerpt =>
          rw [ofDiagnostic_of_excerpt hshown] at hreport
          cases hreport
          rw [String.toList_append]
          exact hheader.append (leaves_write_plain (hfree.escape_not_mem_excerpt hshown))

end

/-- A report in color and the report without color fault alike, or they are the same
text without their escape sequences; and so are the two tallies of any count. -/
theorem color_adds_styles_only
    (source : String) (diagnostic : Diagnostic) :
    ((∃ fault, ofDiagnostic .ansi (Page.ofSource source) diagnostic = .error fault ∧
        ofDiagnostic .plain (Page.ofSource source) diagnostic = .error fault) ∨
      ∃ colored uncolored, ofDiagnostic .ansi (Page.ofSource source) diagnostic = .ok colored ∧
        ofDiagnostic .plain (Page.ofSource source) diagnostic = .ok uncolored ∧
        erased colored = erased uncolored ∧
        (EscapeFree (Page.ofSource source) diagnostic → erased colored = uncolored)) ∧
      ∀ count, erased (tally .ansi count) = erased (tally .plain count) := by
  have hansi : ansi.Invisible := invisible_ofColor true
  have hplain : plain.Invisible := invisible_ofColor false
  refine ⟨?_, fun count => erased_eq_of_leaves (leaves_tally hansi count)
    (leaves_tally hplain count)⟩
  rcases leaves_ofDiagnostic (Page.ofSource source) diagnostic with
    ⟨fault, hfault⟩ | ⟨left, hleft⟩
  · exact Or.inl ⟨fault, hfault .ansi, hfault .plain⟩
  · obtain ⟨colored, hcolored, hleaves⟩ := hleft .ansi hansi
    obtain ⟨uncolored, huncolored, hleavesPlain⟩ := hleft .plain hplain
    have herased := erased_eq_of_leaves hleaves hleavesPlain
    refine Or.inr ⟨colored, uncolored, hcolored, huncolored, herased, ?_⟩
    intro hfree
    have hself := (leaves_ofDiagnostic_plain hfree huncolored).withoutCodes_eq
    rw [herased, erased, hself, String.ofList_toList]

/-- An error on the second line of a file, with a message that could end an escape
sequence. -/
theorem color_adds_styles_only_of_file :
    EscapeFree (Page.ofSource "a\n\t@") ⟨some "b", 2, some ⟨3, 1⟩, "[31m", 1001⟩ ∧
      ∃ colored uncolored,
        ofDiagnostic .ansi (Page.ofSource "a\n\t@") ⟨some "b", 2, some ⟨3, 1⟩, "[31m", 1001⟩ =
          .ok colored ∧
        ofDiagnostic .plain (Page.ofSource "a\n\t@") ⟨some "b", 2, some ⟨3, 1⟩, "[31m", 1001⟩ =
          .ok uncolored ∧
        erased colored = uncolored := by
  have hfree : EscapeFree (Page.ofSource "a\n\t@")
      ⟨some "b", 2, some ⟨3, 1⟩, "[31m", 1001⟩ := by
    have hlookup : (Page.ofSource "a\n\t@").lineAt? 3 = some ['\t', '@'] := by decide +kernel
    constructor
    · rintro file ⟨⟩
      decide
    · decide
    · rintro span line ⟨⟩ hline
      rw [hlookup] at hline
      cases hline
      decide
  have hexcerpt : Excerpt.ofSpan? (Page.ofSource "a\n\t@") ⟨3, 1⟩ =
      .ok (some ⟨2, ['\t', '@'], 1, 1⟩) := by decide +kernel
  refine ⟨hfree, ?_⟩
  rcases (color_adds_styles_only "a\n\t@" ⟨some "b", 2, some ⟨3, 1⟩, "[31m", 1001⟩).1 with
    ⟨fault, -, hfault⟩ | ⟨colored, uncolored, hcolored, huncolored, -, hself⟩
  · have hshown := ofDiagnostic_eq_error_iff.mp hfault
    cases hexcerpt.symm.trans hshown
  · exact ⟨colored, uncolored, hcolored, huncolored, hself hfree⟩

end Report
end LoxLexer

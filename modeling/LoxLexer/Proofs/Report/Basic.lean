import LoxLexer.Report.Basic

/-!
# What a report shows

A report is the header of its diagnostic and what is shown of the source after it:
an excerpt, or nothing.  Nothing is shown where the diagnostic has no span, and
where the span starts at no line of the page; and where its start has no place the
report faults.  None of this depends on the colors.
-/

namespace LoxLexer

/-- What stands in a pad under a line are tabs and blanks. -/
theorem Excerpt.eq_of_mem_indent
    {text : List Char} {c : Char}
    (hmem : c ∈ text.map fun c => if c = '\t' then '\t' else ' ') :
    c = '\t' ∨ c = ' ' := by
  obtain ⟨d, -, rfl⟩ := List.mem_map.mp hmem
  by_cases htab : d = '\t'
  · exact Or.inl (if_pos htab)
  · exact Or.inr (if_neg htab)

namespace Report

/-- What is shown of the source on a page for a diagnostic. -/
def shown (page : Page) (diagnostic : Diagnostic) : Except Fault (Option Excerpt) :=
  match diagnostic.span with
  | none => .ok none
  | some span => Excerpt.ofSpan? page span

section

variable {page : Page} {diagnostic : Diagnostic}

theorem excerptText_eq (palette : Palette) (page : Page) (diagnostic : Diagnostic) :
    excerptText palette page diagnostic.span =
      (shown page diagnostic).map fun excerpt? => (excerpt?.map (·.write palette)).getD "" := by
  unfold shown
  cases diagnostic.span with
  | none => rfl
  | some span =>
      rw [excerptText]
      congr 1
      funext excerpt?
      cases excerpt? with
      | none => rfl
      | some excerpt => rfl

theorem ofDiagnostic_of_fault
    {fault : Fault}
    (hshown : shown page diagnostic = .error fault)
    (palette : Palette) :
    ofDiagnostic palette page diagnostic = .error fault := by
  rw [ofDiagnostic, excerptText_eq, hshown]
  rfl

/-- Where nothing is shown the report is the header. -/
theorem ofDiagnostic_of_nothing
    (hshown : shown page diagnostic = .ok none)
    (palette : Palette) :
    ofDiagnostic palette page diagnostic = .ok (header palette diagnostic ++ "\n") := by
  rw [ofDiagnostic, excerptText_eq, hshown]
  simp only [Except.map, Option.map_none, Option.getD_none, String.append_empty]

theorem ofDiagnostic_of_excerpt
    {excerpt : Excerpt}
    (hshown : shown page diagnostic = .ok (some excerpt))
    (palette : Palette) :
    ofDiagnostic palette page diagnostic =
      .ok (header palette diagnostic ++ "\n" ++ excerpt.write palette) := by
  rw [ofDiagnostic, excerptText_eq, hshown]
  rfl

/-- A report faults only with what it would show. -/
theorem ofDiagnostic_eq_error_iff
    {palette : Palette} {fault : Fault} :
    ofDiagnostic palette page diagnostic = .error fault ↔ shown page diagnostic = .error fault := by
  rw [ofDiagnostic, excerptText_eq]
  cases shown page diagnostic with
  | error other => simp [Except.map]
  | ok excerpt? => simp [Except.map]

end

end Report
end LoxLexer

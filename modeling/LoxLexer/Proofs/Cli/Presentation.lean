import LoxLexer.Cli.Outcome
import LoxLexer.Proofs.Related
import LoxLexer.Proofs.Report.Pointing

/-!
# Presentations

Every source whose places are words is presented: its scan is dumped, and each
of its diagnostics is reported, with or without a file and in any colors.
-/

namespace LoxLexer
namespace Cli

/-- The diagnostics of a source are made without a file. -/
theorem attach_eq_of_mem_diagnosticsOf
    {source : List Char} {diagnostic : Diagnostic}
    (hmem : diagnostic ∈ diagnosticsOf source)
    (file : Option String) :
    attach file diagnostic = { diagnostic with file := file } := by
  obtain ⟨placed, -, hmakes⟩ := mem_diagnosticsOf_iff.mp hmem
  obtain ⟨template, arguments, -, rfl⟩ := Placed.diagnostic?_eq_some_iff.mp hmakes
  cases file <;> rfl

/-- The diagnostics of a source are all reported. -/
theorem exists_report_eq_ok
    {source : List Char} {diagnostic : Diagnostic}
    (hfits : FitsWords source)
    (hmem : diagnostic ∈ diagnosticsOf source)
    (palette : Palette) (file : Option String) :
    ∃ report, Report.ofDiagnostic palette (Page.ofChars source) (attach file diagnostic) =
      .ok report := by
  rw [attach_eq_of_mem_diagnosticsOf hmem]
  obtain ⟨placed, hplaced, hmakes⟩ := mem_diagnosticsOf_iff.mp hmem
  obtain ⟨spot, hstands⟩ := (Placed.standsIn_of_mem_placedOf hplaced).exists_standsAt
  exact ⟨_, hstands.ofDiagnostic_eq_of_error hmakes hfits palette file⟩

/-- A source is presented by the dump of its scan and the reports of its
diagnostics. -/
structure Presentation.IsOf (options : Options) (palette : Palette) (file : Option String)
    (source : String) (result : Scan Log) (shown : Presentation) : Prop where
  scan : LoxLexer.scan source = .ok result
  presented : Presentation.ofSource options palette file source = .ok shown
  dump : shown.dump = if options.quiet then "" else Token.dump options.format result.tokens
  reports : ∃ reports, List.Forall₂ (fun diagnostic report =>
      Report.ofDiagnostic palette (Page.ofSource source) (attach file diagnostic) = .ok report)
    result.reports.toList reports ∧ shown.reports = String.join reports
  errors : shown.errors = result.reports.errorCount

theorem exists_presentation_isOf
    {source : String}
    (hfits : FitsWords source.toList)
    (options : Options) (palette : Palette) (file : Option String) :
    ∃ result shown, Presentation.IsOf options palette file source result shown := by
  obtain ⟨result, hresult, -, hdiagnostics⟩ := exists_scan_eq_ok hfits
  have hreported : ∀ diagnostic ∈ result.reports.toList, ∃ report,
      Report.ofDiagnostic palette (Page.ofSource source) (attach file diagnostic) =
        .ok report := by
    rw [hdiagnostics]
    intro diagnostic hmem
    exact exists_report_eq_ok hfits hmem palette file
  obtain ⟨reports, hreports, hall⟩ := exists_mapM_eq_ok hreported
  let shown : Presentation :=
    { dump := if options.quiet then "" else Token.dump options.format result.tokens
      reports := String.join reports
      errors := result.reports.errorCount }
  refine ⟨result, shown, hresult, ?_, rfl, ⟨reports, hall, rfl⟩, rfl⟩
  rw [Presentation.ofSource, hresult]
  simp only [bind, Except.bind, hreports]
  rfl

end Cli
end LoxLexer

import LoxLexer.Diagnostic.Basic
import LoxLexer.Report.Excerpt

/-!
# Reports

A diagnostic is reported by a header, and, if it has a span, by an excerpt of
its source.  The header is the text of the diagnostic; in color its file, the
word before the code, and the code stand out.  After all diagnostics of a
source a tally says how many there were.
-/

namespace LoxLexer
namespace Report

/-- The header of a diagnostic, without a line feed. -/
def header (palette : Palette) (diagnostic : Diagnostic) : String :=
  (match diagnostic.file with
    | none => ""
    | some file => palette.cyan ++ file ++ palette.reset ++ ":") ++
  "[line " ++ diagnostic.line.decimal ++ "] " ++
  palette.bold ++ palette.red ++ "error" ++ palette.reset ++
  (if diagnostic.code = 0 then ""
    else " " ++ palette.cyan ++ "LOX" ++ diagnostic.code.decimal ++ palette.reset) ++
  ": " ++ diagnostic.message

/-- The excerpt of a span that may be absent, or nothing. -/
def excerptText (palette : Palette) (page : Page) : Option Span → Except Fault String
  | none => .ok ""
  | some span =>
    (Excerpt.ofSpan? page span).map fun
      | none => ""
      | some excerpt => excerpt.write palette

/-- The report of a diagnostic of the source on a page. -/
def ofDiagnostic (palette : Palette) (page : Page) (diagnostic : Diagnostic) :
    Except Fault String :=
  (excerptText palette page diagnostic.span).map fun excerpt =>
    header palette diagnostic ++ "\n" ++ excerpt

/-- The line that says how many errors there were. -/
def tally (palette : Palette) (count : Nat) : String :=
  palette.red ++
    ("Found " ++ count.repr ++ (if count = 1 then " error." else " errors.")) ++
    palette.reset

/-- Without color the header is the text of the diagnostic. -/
theorem header_plain
    (diagnostic : Diagnostic) :
    header .plain diagnostic = diagnostic.text := by
  obtain ⟨file, line, span, message, code⟩ := diagnostic
  apply String.toList_injective
  cases file <;> by_cases hcode : code = 0 <;>
    simp [header, Diagnostic.text, Palette.plain, hcode]

end Report
end LoxLexer

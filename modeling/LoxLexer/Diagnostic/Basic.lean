import LoxLexer.Source.Span
import LoxLexer.Diagnostic.Template

/-!
# Diagnostics

A diagnostic is one error, with its line and, where they are known, its file
and its span.  Its code is that of the template its message was made from; a
message given as plain text has the code zero, which is not shown.
-/

namespace LoxLexer

/-- One error found in a source. -/
structure Diagnostic where
  file : Option String
  line : Word
  span : Option Span
  message : String
  code : Word
deriving DecidableEq

namespace Diagnostic

/-- The diagnostic of a template, filled. -/
def ofTemplate (line : Word) (template : Template) (arguments : List String) : Diagnostic :=
  ⟨none, line, none, Template.fill template.text arguments, template.code⟩

/-- The diagnostic of a plain text. -/
def ofText (line : Word) (message : String) : Diagnostic :=
  ⟨none, line, none, message, 0⟩

/-- The diagnostic with its span set. -/
def spanning (diagnostic : Diagnostic) (span : Span) : Diagnostic :=
  { diagnostic with span := some span }

/-- The diagnostic with its file set. -/
def inFile (diagnostic : Diagnostic) (file : String) : Diagnostic :=
  { diagnostic with file := some file }

/-- The text of a diagnostic on one line: file, line, code and message. -/
def text (diagnostic : Diagnostic) : String :=
  (match diagnostic.file with
    | none => ""
    | some file => file ++ ":") ++
  "[line " ++ diagnostic.line.decimal ++ "] error" ++
  (if diagnostic.code = 0 then "" else " LOX" ++ diagnostic.code.decimal) ++
  ": " ++ diagnostic.message

end Diagnostic
end LoxLexer

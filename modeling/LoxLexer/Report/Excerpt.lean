import LoxLexer.Report.Palette
import LoxLexer.Source.LineIndex
import LoxLexer.Source.Lines
import LoxLexer.Source.Span

/-!
# Excerpts

An excerpt is the line of a source on which a span starts, with carets under
the part of the span that lies on it.  There is always at least one caret, and
apart from that one none stands beyond the end of the line.

A page is a source made ready for excerpts: cut into lines, and indexed.
-/

namespace LoxLexer

/-- A source, cut into lines and indexed. -/
structure Page where
  lines : Array (List Char)
  index : LineIndex

/-- The page of a text. -/
def Page.ofChars (text : List Char) : Page :=
  ⟨(Lines.ofChars text).toArray, LineIndex.ofChars text⟩

/-- The page of a source. -/
def Page.ofSource (source : String) : Page := ofChars source.toList

/-- A line of a source with a part of it marked. -/
structure Excerpt where
  /-- The number of the line. -/
  line : Word
  /-- The characters of the line. -/
  text : List Char
  /-- The number of characters before the marked part. -/
  before : Nat
  /-- The number of carets. -/
  carets : Nat
deriving DecidableEq

namespace Excerpt

/-- The line of a place, marked for a length. -/
def at? (page : Page) (place : Place) (length : Word) : Option Excerpt :=
  (page.lines[place.line.toNat - 1]?).map fun text =>
    let before := place.column.toNat - 1
    let available := (Word.ofCount text.length).toNat - before
    ⟨place.line, text, before, max 1 (min length.toNat available)⟩

/-- The excerpt of a span, unless it starts after the last line. -/
def ofSpan? (page : Page) (span : Span) : Except Fault (Option Excerpt) :=
  (page.index.placeOf span.start).map fun place => at? page place span.length

/-- What stands before the text of the line. -/
def gutter (excerpt : Excerpt) : String := excerpt.line.decimal ++ " | "

/-- What stands before the carets: blanks for the gutter and for each character
before the marked part, but a tab for a tab, so that the carets line up however
wide a tab is. -/
def pad (excerpt : Excerpt) : List Char :=
  List.replicate excerpt.gutter.length ' ' ++
    (excerpt.text.take excerpt.before).map fun c => if c = '\t' then '\t' else ' '

/-- The two lines of an excerpt. -/
def write (palette : Palette) (excerpt : Excerpt) : String :=
  palette.gray ++ excerpt.gutter ++ palette.reset ++ String.ofList excerpt.text ++ "\n" ++
    String.ofList excerpt.pad ++ palette.red ++
    String.ofList (List.replicate excerpt.carets '^') ++ palette.reset ++ "\n"

end Excerpt
end LoxLexer

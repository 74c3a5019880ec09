/-!
# Palettes

A palette holds the texts that switch a terminal to a style and back.  The
plain palette has nothing in it, so one way of writing a report serves with and
without color.
-/

namespace LoxLexer

/-- The texts that switch styles on and off. -/
structure Palette where
  bold : String
  red : String
  cyan : String
  gray : String
  reset : String

namespace Palette

/-- No styles at all. -/
def plain : Palette := ⟨"", "", "", "", ""⟩

/-- The escape sequences of terminals. -/
def ansi : Palette := ⟨"\x1b[1m", "\x1b[31m", "\x1b[36m", "\x1b[90m", "\x1b[0m"⟩

/-- The palette for a choice of color. -/
def ofColor (color : Bool) : Palette := if color then ansi else plain

end Palette
end LoxLexer

import LoxLexer.Source.Span
import LoxLexer.Token.Kind
import LoxLexer.Json

/-!
# Tokens

A token is a lexeme of a source with its kind, its place, and, for strings and
numbers, the value it stands for.  The end of the input is a token as well: it
has no text and lies one past the last character.

A token is written in two ways: as a line of three fields, and as a JSON object.
-/

namespace LoxLexer

/-- The value of a literal.  A string is the text between the quotes as it
stands; nothing in it is an escape. -/
inductive Literal where
  | number (value : Binary64)
  | string (value : String)
deriving DecidableEq

namespace Literal

/-- Number literals are positional from three places after the point to seven
before it, and a single digit keeps its point and zero before an exponent. -/
def numberLayout : Layout where
  tie := .up
  leastPositional := -3
  greatestPositional := 6
  exponentMark := 'E'
  plusWritten := false
  pointKept := true

/-- The text of a number. -/
def numberText (value : Binary64) : String :=
  if value.isNaN then "NaN"
  else if value.isInfinite then
    if value.isNegative then "-Infinity" else "Infinity"
  else String.ofList (numberLayout.ofFinite value)

/-- The text of a literal. -/
def text : Literal → String
  | .number value => numberText value
  | .string value => value

/-- The JSON value of a literal. -/
def json : Literal → Json
  | .number value => .number value
  | .string value => .string value

/-- Equality of literals, numbers compared as numbers. -/
def agrees : Literal → Literal → Bool
  | .number first, .number second => first.agrees second
  | .string first, .string second => first == second
  | _, _ => false

end Literal

/-- The JSON object of a span. -/
def Span.json (span : Span) : Json :=
  .object [("start", .count span.start.toNat), ("length", .count span.length.toNat)]

/-- A lexeme of a source with its meaning and its place. -/
structure Token where
  kind : Kind
  /-- The characters of the source, unchanged. -/
  lexeme : String
  literal : Option Literal
  /-- The line on which the lexeme starts. -/
  line : Word
  span : Span
deriving DecidableEq

namespace Token

/-- The token after the last character of a source. -/
def endOfInput (line position : Word) : Token :=
  ⟨.endOfInput, "", none, line, Span.empty position⟩

/-- Whether a token is the end of the input. -/
def isEnd (token : Token) : Bool := token.kind == .endOfInput

/-- The value of a number token. -/
def number? (token : Token) : Option Binary64 :=
  match token.literal with
  | some (.number value) => some value
  | _ => none

/-- The value of a string token. -/
def string? (token : Token) : Option String :=
  match token.literal with
  | some (.string value) => some value
  | _ => none

/-- Equality of tokens, number literals compared as numbers. -/
def agrees (first second : Token) : Bool :=
  first.kind == second.kind && first.lexeme == second.lexeme &&
    (match first.literal, second.literal with
    | none, none => true
    | some left, some right => left.agrees right
    | _, _ => false) &&
    first.line == second.line && first.span == second.span

/-- The text of a literal that may be absent. -/
def literalText (token : Token) : String :=
  match token.literal with
  | none => "null"
  | some literal => literal.text

/-- A token as three fields: kind, lexeme and literal. -/
def text (token : Token) : String :=
  token.kind.name ++ " " ++ token.lexeme ++ " " ++ token.literalText

/-- The JSON object of a token. -/
def json (token : Token) : Json :=
  .object
    [("kind", .string token.kind.name),
     ("lexeme", .string token.lexeme),
     ("literal", (token.literal.map Literal.json).getD .null),
     ("line", .count token.line.toNat),
     ("span", token.span.json)]

end Token
end LoxLexer

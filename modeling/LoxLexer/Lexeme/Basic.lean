import LoxLexer.Token.Basic
import LoxLexer.Diagnostic.Template

/-!
# Lexemes

A source is a sequence of lexemes: marks, words, numbers, strings, comments and
blanks, and the two kinds of text that are in error, a string that is never
closed and a character that begins nothing.  A lexeme knows its own text, how
many lines it moves on by, and what it means: a token, an error, or nothing.

Letters and digits are those of ASCII; any other character outside a string or
a comment begins nothing.
-/

namespace LoxLexer

/-- The pieces of a source. -/
inductive Lexeme where
  | operator (mark : Punctuation)
  | word (text : List Char)
  | number (whole : List Char) (fraction : Option (List Char))
  | string (body : List Char)
  | comment (body : List Char)
  | blank (c : Char)
  | lineFeed
  | unterminated (body : List Char)
  | unexpected (c : Char)
deriving DecidableEq

/-- What a lexeme contributes to a scan. -/
inductive Meaning where
  | token (kind : Kind) (literal : Option Literal)
  | error (template : Template) (arguments : List String)
  | nothing

namespace Lexeme

/-- The blanks that end no line. -/
def isBlank (c : Char) : Bool := c == ' ' || c == '\r' || c == '\t'

/-- The characters that a word begins with. -/
def isWordStart (c : Char) : Bool := c.isAlpha || c == '_'

/-- The characters that a word goes on with. -/
def isWordPart (c : Char) : Bool := isWordStart c || c.isDigit

/-- The characters that a string goes on with. -/
def isStringPart (c : Char) : Bool := c != '"'

/-- The characters that a comment goes on with. -/
def isCommentPart (c : Char) : Bool := c != '\n'

/-- The characters of a lexeme. -/
def text : Lexeme → List Char
  | .operator mark => mark.text.toList
  | .word text => text
  | .number whole none => whole
  | .number whole (some fraction) => whole ++ '.' :: fraction
  | .string body => '"' :: (body ++ ['"'])
  | .comment body => '/' :: '/' :: body
  | .blank c => [c]
  | .lineFeed => ['\n']
  | .unterminated body => '"' :: body
  | .unexpected c => [c]

/-- The number of characters of a lexeme. -/
def length (lexeme : Lexeme) : Nat := lexeme.text.length

/-- The number of lines that a lexeme moves on by. -/
def lineFeeds : Lexeme → Nat
  | .lineFeed => 1
  | .string body => body.count '\n'
  | .unterminated body => body.count '\n'
  | _ => 0

/-- The natural that decimal digits denote. -/
def naturalOf (digits : List Char) : Nat :=
  digits.foldl (fun value digit => 10 * value + (digit.toNat - 48)) 0

/-- The number nearest to what a number lexeme denotes. -/
def numberValue (whole : List Char) (fraction : Option (List Char)) : Binary64 :=
  let places := fraction.getD []
  Binary64.ofDecimal (naturalOf (whole ++ places)) (-(places.length : Int))

/-- What a lexeme means. -/
def meaning : Lexeme → Meaning
  | .operator mark => .token (.punctuation mark) none
  | .word text => .token (Kind.ofWord (String.ofList text)) none
  | .number whole fraction =>
    .token .number (some (.number (numberValue whole fraction)))
  | .string body => .token .string (some (.string (String.ofList body)))
  | .comment _ | .blank _ | .lineFeed => .nothing
  | .unterminated _ => .error .unterminatedString []
  | .unexpected c => .error .unexpectedCharacter [String.singleton c]

end Lexeme
end LoxLexer

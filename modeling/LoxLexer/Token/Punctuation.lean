/-!
# Punctuation marks

The marks and operators of the language, each with its spelling of one or two
characters and a stable upper-case name.  A mark of two characters is one of
four marks with an equals sign after it.
-/

namespace LoxLexer

/-- The punctuation marks and operators. -/
inductive Punctuation where
  | leftParen
  | rightParen
  | leftBrace
  | rightBrace
  | comma
  | dot
  | minus
  | plus
  | semicolon
  | slash
  | star
  | bang
  | bangEqual
  | equal
  | equalEqual
  | greater
  | greaterEqual
  | less
  | lessEqual
deriving DecidableEq

namespace Punctuation

/-- The marks in order. -/
def all : List Punctuation :=
  [.leftParen, .rightParen, .leftBrace, .rightBrace, .comma, .dot,
    .minus, .plus, .semicolon, .slash, .star, .bang,
    .bangEqual, .equal, .equalEqual, .greater, .greaterEqual, .less,
    .lessEqual]

/-- The spelling of a mark. -/
def text : Punctuation → String
  | .leftParen => "("
  | .rightParen => ")"
  | .leftBrace => "\x7b"
  | .rightBrace => "\x7d"
  | .comma => ","
  | .dot => "."
  | .minus => "-"
  | .plus => "+"
  | .semicolon => ";"
  | .slash => "/"
  | .star => "*"
  | .bang => "!"
  | .bangEqual => "!="
  | .equal => "="
  | .equalEqual => "=="
  | .greater => ">"
  | .greaterEqual => ">="
  | .less => "<"
  | .lessEqual => "<="

/-- The name of a mark. -/
def name : Punctuation → String
  | .leftParen => "LEFT_PAREN"
  | .rightParen => "RIGHT_PAREN"
  | .leftBrace => "LEFT_BRACE"
  | .rightBrace => "RIGHT_BRACE"
  | .comma => "COMMA"
  | .dot => "DOT"
  | .minus => "MINUS"
  | .plus => "PLUS"
  | .semicolon => "SEMICOLON"
  | .slash => "SLASH"
  | .star => "STAR"
  | .bang => "BANG"
  | .bangEqual => "BANG_EQUAL"
  | .equal => "EQUAL"
  | .equalEqual => "EQUAL_EQUAL"
  | .greater => "GREATER"
  | .greaterEqual => "GREATER_EQUAL"
  | .less => "LESS"
  | .lessEqual => "LESS_EQUAL"

/-- The mark that a single character makes. -/
def ofChar? : Char → Option Punctuation
  | '(' => some .leftParen
  | ')' => some .rightParen
  | '{' => some .leftBrace
  | '}' => some .rightBrace
  | ',' => some .comma
  | '.' => some .dot
  | '-' => some .minus
  | '+' => some .plus
  | ';' => some .semicolon
  | '/' => some .slash
  | '*' => some .star
  | '!' => some .bang
  | '=' => some .equal
  | '>' => some .greater
  | '<' => some .less
  | _ => none

/-- The mark that a mark makes together with an equals sign after it. -/
def withEqual? : Punctuation → Option Punctuation
  | .bang => some .bangEqual
  | .equal => some .equalEqual
  | .greater => some .greaterEqual
  | .less => some .lessEqual
  | _ => none

/-- Every mark is listed. -/
theorem mem_all
    (mark : Punctuation) :
    mark ∈ all := by
  cases mark <;> decide

/-- A mark of one character is spelled with it. -/
theorem text_of_ofChar?_eq_some
    {c : Char} {mark : Punctuation}
    (hmark : ofChar? c = some mark) :
    mark.text.toList = [c] := by
  unfold ofChar? at hmark
  split at hmark <;> cases hmark <;> decide

/-- A mark with an equals sign is spelled as the mark and the sign. -/
theorem text_of_withEqual?_eq_some
    {mark long : Punctuation}
    (hlong : mark.withEqual? = some long) :
    long.text.toList = mark.text.toList ++ ['='] := by
  cases mark <;> cases hlong <;> decide

/-- No mark is empty. -/
theorem text_ne_nil
    (mark : Punctuation) :
    mark.text.toList ≠ [] := by
  cases mark <;> decide

end Punctuation
end LoxLexer

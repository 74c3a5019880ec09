import LoxLexer.Token.Keyword
import LoxLexer.Token.Punctuation

/-!
# Token kinds

A token is a punctuation mark, a name, a string, a number, a reserved word, or
the end of the input.  Each kind has a stable upper-case name, and kinds are
ordered as they are listed in `Kind.all`: the marks, the three kinds of literal,
the reserved words, and the end of the input last.
-/

namespace LoxLexer

/-- The kinds of token. -/
inductive Kind where
  | punctuation (mark : Punctuation)
  | identifier
  | string
  | number
  | keyword (word : Keyword)
  | endOfInput
deriving DecidableEq

namespace Kind

/-- The name of a kind. -/
def name : Kind → String
  | .punctuation mark => mark.name
  | .identifier => "IDENTIFIER"
  | .string => "STRING"
  | .number => "NUMBER"
  | .keyword word => word.name
  | .endOfInput => "EOF"

/-- The mark of a kind. -/
def punctuation? : Kind → Option Punctuation
  | .punctuation mark => some mark
  | _ => none

/-- The reserved word of a kind. -/
def keyword? : Kind → Option Keyword
  | .keyword word => some word
  | _ => none

/-- Whether a kind is a punctuation mark or an operator. -/
def isPunctuation (kind : Kind) : Bool := kind.punctuation?.isSome

/-- Whether a kind is a reserved word. -/
def isKeyword (kind : Kind) : Bool := kind.keyword?.isSome

/-- Whether a kind carries a value or a name. -/
def isLiteral : Kind → Bool
  | .identifier | .string | .number => true
  | _ => false

/-- The kinds of the reserved words, in order. -/
def keywords : List Kind := Keyword.all.map .keyword

/-- The kinds in order. -/
def all : List Kind :=
  Punctuation.all.map .punctuation ++ [.identifier, .string, .number] ++ keywords ++
    [.endOfInput]

/-- The place of a kind in the order. -/
def rank (kind : Kind) : Nat := all.idxOf kind

/-- Kinds compare by their place in the order. -/
instance : Ord Kind where
  compare first second := compare first.rank second.rank

/-- The kind of a word: its reserved word, or else a name. -/
def ofWord (spelling : String) : Kind :=
  match Keyword.ofText? spelling with
  | some word => .keyword word
  | none => .identifier

/-- Every kind is listed. -/
theorem mem_all
    (kind : Kind) :
    kind ∈ all := by
  cases kind with
  | punctuation mark =>
    have hlisted : punctuation mark ∈ Punctuation.all.map punctuation :=
      List.mem_map_of_mem mark.mem_all
    simp [all, hlisted]
  | keyword word =>
    have hlisted : keyword word ∈ keywords := List.mem_map_of_mem word.mem_all
    simp [all, hlisted]
  | identifier | string | number | endOfInput => simp [all]

end Kind
end LoxLexer

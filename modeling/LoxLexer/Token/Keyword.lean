/-!
# Reserved words

The words that are not names.  A reserved word is known by its exact spelling
in lower case; its stable name is the same word in upper case.
-/

namespace LoxLexer

/-- The reserved words. -/
inductive Keyword where
  | andWord
  | classWord
  | elseWord
  | falseWord
  | funWord
  | forWord
  | ifWord
  | nilWord
  | orWord
  | printWord
  | returnWord
  | superWord
  | thisWord
  | trueWord
  | varWord
  | whileWord
deriving DecidableEq

namespace Keyword

/-- The reserved words in order. -/
def all : List Keyword :=
  [.andWord, .classWord, .elseWord, .falseWord, .funWord, .forWord,
    .ifWord, .nilWord, .orWord, .printWord, .returnWord, .superWord,
    .thisWord, .trueWord, .varWord, .whileWord]

/-- The spelling of a reserved word. -/
def text : Keyword → String
  | .andWord => "and"
  | .classWord => "class"
  | .elseWord => "else"
  | .falseWord => "false"
  | .funWord => "fun"
  | .forWord => "for"
  | .ifWord => "if"
  | .nilWord => "nil"
  | .orWord => "or"
  | .printWord => "print"
  | .returnWord => "return"
  | .superWord => "super"
  | .thisWord => "this"
  | .trueWord => "true"
  | .varWord => "var"
  | .whileWord => "while"

/-- The name of a reserved word. -/
def name : Keyword → String
  | .andWord => "AND"
  | .classWord => "CLASS"
  | .elseWord => "ELSE"
  | .falseWord => "FALSE"
  | .funWord => "FUN"
  | .forWord => "FOR"
  | .ifWord => "IF"
  | .nilWord => "NIL"
  | .orWord => "OR"
  | .printWord => "PRINT"
  | .returnWord => "RETURN"
  | .superWord => "SUPER"
  | .thisWord => "THIS"
  | .trueWord => "TRUE"
  | .varWord => "VAR"
  | .whileWord => "WHILE"

/-- The reserved word that is spelled exactly so, if there is one. -/
def ofText? (spelling : String) : Option Keyword :=
  all.find? (·.text = spelling)

/-- Every reserved word is listed. -/
theorem mem_all
    (keyword : Keyword) :
    keyword ∈ all := by
  cases keyword <;> decide

/-- What a look-up finds is spelled as asked. -/
theorem text_of_ofText?_eq_some
    {spelling : String} {keyword : Keyword}
    (hfound : ofText? spelling = some keyword) :
    keyword.text = spelling := by
  simpa using List.find?_some hfound

/-- Each reserved word is found by its own spelling. -/
theorem ofText?_text
    (keyword : Keyword) :
    ofText? keyword.text = some keyword := by
  cases keyword <;> decide

end Keyword
end LoxLexer

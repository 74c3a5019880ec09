import LoxLexer.Token.Basic

/-!
# Token dumps

The tokens of a source are dumped in one of two formats: text, one line a
token, or an indented JSON array.  Either dump ends with a line feed.
-/

namespace LoxLexer

/-- The formats of a token dump. -/
inductive DumpFormat where
  | text
  | json
deriving DecidableEq

/-- The dump of tokens in a format. -/
def Token.dump (format : DumpFormat) (tokens : List Token) : String :=
  match format with
  | .text => String.join (tokens.map fun token => token.text ++ "\n")
  | .json => (Json.array (tokens.map Token.json)).pretty ++ "\n"

end LoxLexer

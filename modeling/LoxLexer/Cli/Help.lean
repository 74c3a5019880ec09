/-!
# Help texts

What the program says about itself: two help texts, a short and a long one, the
version, and the commands of the prompt.
-/

namespace LoxLexer
namespace Cli

/-- Lines of text, each with its line feed. -/
def textOfLines (lines : List String) : String :=
  String.join (lines.map (· ++ "\n"))

/-- The short help text. -/
def shortHelp : String :=
  textOfLines [
    "Lox scanner - tokenize Lox source code",
    "",
    "Usage: lox [OPTIONS] [FILE]",
    "",
    "Arguments:",
    "  [FILE]  Lox file to scan. Starts a prompt when omitted",
    "",
    "Options:",
    "      --format <FORMAT>  Token dump format [default: text] [possible values: text, json]",
    "      --color <COLOR>    When to color diagnostics [default: auto] [possible values: auto, always, never]",
    "  -q, --quiet            Only report errors; do not print tokens",
    "  -v, --verbose          Log scanner activity to stderr (overridden by RUST_LOG)",
    "  -h, --help             Print help (see more with '--help')",
    "  -V, --version          Print version"]

/-- The long help text. -/
def longHelp : String :=
  textOfLines [
    "Lox scanner - tokenize Lox source code",
    "",
    "Usage: lox [OPTIONS] [FILE]",
    "",
    "Arguments:",
    "  [FILE]",
    "          Lox file to scan. Starts a prompt when omitted",
    "",
    "Options:",
    "      --format <FORMAT>",
    "          Token dump format",
    "",
    "          Possible values:",
    "          - text: One `KIND lexeme literal` line per token",
    "          - json: A JSON array of tokens",
    "          ",
    "          [default: text]",
    "",
    "      --color <COLOR>",
    "          When to color diagnostics",
    "          ",
    "          [default: auto]",
    "          [possible values: auto, always, never]",
    "",
    "  -q, --quiet",
    "          Only report errors; do not print tokens",
    "",
    "  -v, --verbose",
    "          Log scanner activity to stderr (overridden by RUST_LOG)",
    "",
    "  -h, --help",
    "          Print help (see a summary with '-h')",
    "",
    "  -V, --version",
    "          Print version"]

/-- The version. -/
def versionText : String := textOfLines ["lox 0.1.0"]

/-- The commands of the prompt. -/
def promptHelp : String :=
  textOfLines [
    "Enter Lox source to see its tokens.",
    "  .help   Show this message",
    "  .exit   Leave the prompt (also Ctrl-D)"]

end Cli
end LoxLexer

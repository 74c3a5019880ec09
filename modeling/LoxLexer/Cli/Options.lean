import LoxLexer.Token.Dump

/-!
# Command line options

The arguments of the program are read from left to right.  The first of an
error, a call for help and a call for the version decides; if there is none,
the choices made are the options of a run.

An option that takes a value has it after an equals sign or as the next
argument, which then must not begin with a minus sign.  Short options can share
one argument.  After two minus signs every argument is a file.
-/

namespace LoxLexer
namespace Cli

/-- When reports are in color. -/
inductive ColorChoice where
  /-- When the error output is a terminal. -/
  | auto
  | always
  | never
deriving DecidableEq

/-- Whether reports are in color. -/
def ColorChoice.enabled (choice : ColorChoice) (terminal : Bool) : Bool :=
  match choice with
  | .auto => terminal
  | .always => true
  | .never => false

/-- The options of a run. -/
structure Options where
  /-- The file to scan; without one, a prompt is started. -/
  file : Option String
  format : DumpFormat
  color : ColorChoice
  quiet : Bool
  /-- Whether the activity is to be logged; a log is no part of an outcome. -/
  verbose : Bool
deriving DecidableEq

/-- What the arguments ask for. -/
inductive Request where
  | run (options : Options)
  /-- The help text, the long one if it is asked for in full. -/
  | help (long : Bool)
  | version
deriving DecidableEq

/-- What can be wrong with the arguments. -/
inductive UsageError where
  | unknownOption (argument : String)
  | missingValue (option : String)
  | invalidValue (option value : String)
  | unexpectedValue (option : String)
  | repeatedOption (option : String)
  | secondFile (argument : String)
  | emptyFile
deriving DecidableEq

/-- The text of a usage error. -/
def UsageError.message : UsageError → String
  | .unknownOption argument => "unexpected argument '" ++ argument ++ "'"
  | .missingValue option => "a value is required for '" ++ option ++ "'"
  | .invalidValue option value => "invalid value '" ++ value ++ "' for '" ++ option ++ "'"
  | .unexpectedValue option => "no value is taken by '" ++ option ++ "'"
  | .repeatedOption option => "'" ++ option ++ "' is given more than once"
  | .secondFile argument => "unexpected argument '" ++ argument ++ "'"
  | .emptyFile => "the file name is empty"

/-- The choices made by the arguments read so far. -/
structure Choices where
  file : Option String
  format : Option DumpFormat
  color : Option ColorChoice
  quiet : Bool
  verbose : Bool

namespace Choices

/-- No choices yet. -/
def initial : Choices := ⟨none, none, none, false, false⟩

/-- The options that the choices make. -/
def options (choices : Choices) : Options :=
  ⟨choices.file, choices.format.getD .text, choices.color.getD .auto, choices.quiet,
    choices.verbose⟩

/-- The choices with a file. -/
def withFile (choices : Choices) (name : String) : Except UsageError Choices :=
  if choices.file.isSome then .error (.secondFile name)
  else if name = "" then .error .emptyFile
  else .ok { choices with file := some name }

/-- The choices with the dumps left out. -/
def withQuiet (choices : Choices) : Except UsageError Choices :=
  if choices.quiet then .error (.repeatedOption "--quiet")
  else .ok { choices with quiet := true }

/-- The choices with the activity told of. -/
def withVerbose (choices : Choices) : Except UsageError Choices :=
  if choices.verbose then .error (.repeatedOption "--verbose")
  else .ok { choices with verbose := true }

/-- The choices with a dump format. -/
def withFormat (choices : Choices) (value : String) : Except UsageError Choices :=
  if choices.format.isSome then .error (.repeatedOption "--format")
  else if value = "text" then .ok { choices with format := some .text }
  else if value = "json" then .ok { choices with format := some .json }
  else .error (.invalidValue "--format" value)

/-- The choices with a color choice. -/
def withColor (choices : Choices) (value : String) : Except UsageError Choices :=
  if choices.color.isSome then .error (.repeatedOption "--color")
  else if value = "auto" then .ok { choices with color := some .auto }
  else if value = "always" then .ok { choices with color := some .always }
  else if value = "never" then .ok { choices with color := some .never }
  else .error (.invalidValue "--color" value)

end Choices

/-- Where reading an argument leads: on with more choices, or to a request at
once. -/
inductive Progress where
  | go (choices : Choices)
  | done (request : Request)

/-- The effect of the letters that follow one minus sign. -/
def readLetters (argument : String) (choices : Choices) :
    List Char → Except UsageError Progress
  | [] => .ok (.go choices)
  | 'q' :: others => do readLetters argument (← choices.withQuiet) others
  | 'v' :: others => do readLetters argument (← choices.withVerbose) others
  | 'h' :: _ => .ok (.done (.help false))
  | 'V' :: _ => .ok (.done .version)
  | _ => .error (.unknownOption argument)

/-- The long options. -/
inductive LongOption where
  | quiet
  | verbose
  | help
  | version
  | format
  | color
deriving DecidableEq

namespace LongOption

/-- The name of a long option, without the minus signs. -/
def name : LongOption → String
  | .quiet => "quiet"
  | .verbose => "verbose"
  | .help => "help"
  | .version => "version"
  | .format => "format"
  | .color => "color"

/-- The long options in order. -/
def all : List LongOption := [.quiet, .verbose, .help, .version, .format, .color]

/-- The long option of a name, which is not to be shortened. -/
def ofName? (name : String) : Option LongOption :=
  all.find? (·.name = name)

/-- The effect of a long option that takes no value; nothing for one that does. -/
def flag? (option : LongOption) (choices : Choices) : Option (Except UsageError Progress) :=
  match option with
  | .quiet => some (choices.withQuiet.map .go)
  | .verbose => some (choices.withVerbose.map .go)
  | .help => some (.ok (.done (.help true)))
  | .version => some (.ok (.done .version))
  | .format | .color => none

/-- The choices after a long option with a value. -/
def withValue (option : LongOption) (choices : Choices) (value : String) :
    Except UsageError Choices :=
  match option with
  | .format => choices.withFormat value
  | .color => choices.withColor value
  | _ => .error (.unexpectedValue ("--" ++ option.name))

end LongOption

/-- The name and the value of a long option, cut at its first equals sign. -/
def cutAtEqual (text : List Char) : String × Option String :=
  (String.ofList (text.takeWhile (· != '=')),
    match text.dropWhile (· != '=') with
    | [] => none
    | _ :: value => some (String.ofList value))

/-- The choices after arguments that are all files. -/
def readFiles (choices : Choices) : List String → Except UsageError Choices
  | [] => .ok choices
  | name :: others => do readFiles (← choices.withFile name) others

/-- The request that arguments make after the choices of those before them. -/
def readArguments (choices : Choices) (arguments : List String) :
    Except UsageError Request :=
  match arguments with
  | [] => .ok (.run choices.options)
  | argument :: others =>
    match argument.toList with
    | ['-', '-'] => (readFiles choices others).map fun chosen => .run chosen.options
    | '-' :: '-' :: text =>
      let (name, value?) := cutAtEqual text
      match LongOption.ofName? name with
      | none => .error (.unknownOption argument)
      | some option =>
        match option.flag? choices, value? with
        | some _, some _ => .error (.unexpectedValue argument)
        | some effect, none =>
          match effect with
          | .error problem => .error problem
          | .ok (.done request) => .ok request
          | .ok (.go chosen) => readArguments chosen others
        | none, some value =>
          match option.withValue choices value with
          | .error problem => .error problem
          | .ok chosen => readArguments chosen others
        | none, none =>
          match others with
          | [] => .error (.missingValue argument)
          | value :: later =>
            if value.toList.head? = some '-' then
              .error (.missingValue argument)
            else
              match option.withValue choices value with
              | .error problem => .error problem
              | .ok chosen => readArguments chosen later
    | '-' :: letter :: letters =>
      match readLetters argument choices (letter :: letters) with
      | .error problem => .error problem
      | .ok (.done request) => .ok request
      | .ok (.go chosen) => readArguments chosen others
    | _ =>
      match choices.withFile argument with
      | .error problem => .error problem
      | .ok chosen => readArguments chosen others

/-- The request that the arguments of the program make. -/
def Request.ofArguments (arguments : List String) : Except UsageError Request :=
  readArguments Choices.initial arguments

end Cli
end LoxLexer

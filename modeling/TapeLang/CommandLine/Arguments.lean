import TapeLang.Alphabet
import TapeLang.Tape

/-!
# Arguments

What the arguments of the command line ask for. They are read from left to
right. An argument that begins with a dash is an option until a double dash
ends the options; anything else is the path of a source file. The number of
paths is not checked here.

Asking for help takes the place of all other work, but an option after it is
an error.
-/

namespace TapeLang.CommandLine

/-- What is to be done. -/
structure Arguments where
  /-- The paths of the source files. -/
  paths : List String := []
  /-- The alphabet of the source. -/
  encoding : Alphabet := .zeroWidth
  /-- The length of the tape. -/
  tapeLength : TapeLength := .default
  /-- Whether the program is listed and not run. -/
  listing : Bool := false
  /-- The alphabet in which the program is written and not run, if any. -/
  target : Option Alphabet := none

/-- An option that has a value. -/
inductive Setting where
  | encoding
  | tapeLength
  | target
  deriving DecidableEq, Repr

/-- The option of a name. -/
def Setting.ofName? : String → Option Setting
  | "-e" | "--encoding" => some .encoding
  | "--tape-length" => some .tapeLength
  | "-t" | "--translate" => some .target
  | _ => none

/-- Why a value is not accepted. -/
inductive ValueError where
  /-- The option has a value already. -/
  | duplicate
  /-- The value is no alphabet. -/
  | alphabet (error : AlphabetError)
  /-- The value is no length of a tape. -/
  | length (error : TapeLength.ParseError)
  deriving DecidableEq, Repr

/-- The wording of an error. -/
def ValueError.message : ValueError → String
  | .duplicate => "duplicate values provided"
  | .alphabet error => error.message
  | .length error => error.message

/-- Why arguments ask for nothing. -/
inductive ArgumentError where
  /-- An option stands after the request for help. -/
  | afterHelp
  /-- There is no such option. -/
  | unrecognized (argument : String)
  /-- The last argument is an option that lacks its value. -/
  | missingValue (option : String)
  /-- The value of an option is not accepted. -/
  | invalidValue (option value : String) (reason : ValueError)
  deriving DecidableEq, Repr

namespace ArgumentError

/-- The wording of an error. -/
def message : ArgumentError → String
  | .afterHelp => "Trailing arguments are not allowed after `help`."
  | .unrecognized argument => "Unrecognized argument: " ++ argument
  | .missingValue option => "No value provided for option '" ++ option ++ "'."
  | .invalidValue option value reason =>
    "Error parsing option '" ++ option ++ "' with value '" ++ value ++ "': " ++ reason.message

/-- The whole report of an error. -/
def report (error : ArgumentError) : String :=
  let gap := if error = .afterHelp then "\n" else "\n\n"
  error.message ++ gap ++ "Run hush --help for more information.\n"

end ArgumentError

/-- What has been read so far. -/
structure Draft where
  /-- The paths in order. -/
  paths : List String := []
  /-- The value of the encoding, if given. -/
  encoding : Option Alphabet := none
  /-- The value of the length, if given. -/
  tapeLength : Option TapeLength := none
  /-- Whether a listing is asked for. -/
  listing : Bool := false
  /-- The value of the target alphabet, if given. -/
  target : Option Alphabet := none
  /-- Whether help is asked for. -/
  help : Bool := false

namespace Draft

/-- The arguments when all has been read. -/
def arguments (draft : Draft) : Arguments where
  paths := draft.paths
  encoding := draft.encoding.getD .zeroWidth
  tapeLength := draft.tapeLength.getD .default
  listing := draft.listing
  target := draft.target

/-- Reads the value of an alphabet that has not been given before. -/
def alphabetValue (given : Option Alphabet) (value : String) : Except ValueError Alphabet :=
  match given with
  | some _ => .error .duplicate
  | none => (Alphabet.ofName value).mapError .alphabet

/-- Reads the value of a length that has not been given before. -/
def lengthValue (given : Option TapeLength) (value : String) : Except ValueError TapeLength :=
  match given with
  | some _ => .error .duplicate
  | none => (TapeLength.parse value).mapError .length

/-- Gives an option its value. -/
def assign (draft : Draft) (setting : Setting) (value : String) : Except ValueError Draft :=
  match setting with
  | .encoding =>
    (alphabetValue draft.encoding value).map fun alphabet =>
      { draft with encoding := some alphabet }
  | .tapeLength =>
    (lengthValue draft.tapeLength value).map fun length =>
      { draft with tapeLength := some length }
  | .target =>
    (alphabetValue draft.target value).map fun alphabet =>
      { draft with target := some alphabet }

/-- Reads arguments from left to right. -/
def read (draft : Draft) : List String → Except ArgumentError Draft
  | [] => .ok draft
  | argument :: rest =>
    if argument = "--help" || argument = "help" then
      read { draft with help := true } rest
    else if argument = "--" then
      .ok { draft with paths := draft.paths ++ rest }
    else if argument.toList.head? ≠ some '-' then
      read { draft with paths := draft.paths ++ [argument] } rest
    else if draft.help then
      .error .afterHelp
    else if argument = "-l" || argument = "--listing" then
      read { draft with listing := true } rest
    else
      match Setting.ofName? argument, rest with
      | none, _ => .error (.unrecognized argument)
      | some _, [] => .error (.missingValue argument)
      | some setting, value :: rest =>
        match draft.assign setting value with
        | .error reason => .error (.invalidValue argument value reason)
        | .ok draft => read draft rest

end Draft

/-- What arguments come to. -/
inductive Request where
  /-- The help text is to be shown. -/
  | help
  /-- The work is to be done. -/
  | work (arguments : Arguments)

/-- Reads the arguments of the command line. -/
def Request.parse (arguments : List String) : Except ArgumentError Request :=
  match Draft.read {} arguments with
  | .error error => .error error
  | .ok draft => .ok (if draft.help then .help else .work draft.arguments)

/-- The help text. -/
def helpText : String := "\n".intercalate
  [ "Usage: hush [-e <encoding>] [--tape-length <tape-length>] [-l] [-t <translate>]" ++
      " [--] [<input...>]",
    "",
    "An interpreter for a tape language written in invisible characters.",
    "",
    "Positional Arguments:",
    "  input             the source file to run",
    "",
    "Options:",
    "  -e, --encoding    the symbol set the source is written in, currently",
    "                    supported: `zero-width`, `ascii`",
    "  --tape-length     the number of cells on the tape",
    "  -l, --listing     whether to print the compiled program instead of running it",
    "  -t, --translate   the symbol set to rewrite the program in instead of running",
    "                    it",
    "  --help, help      display usage information",
    "",
    "" ]

end TapeLang.CommandLine

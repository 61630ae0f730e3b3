import Pseudocode.Command.Event
import Pseudocode.Text.Quoted

/-!
# Usage

How the command is called: the help and the version, and what a wrong call is told.
-/

namespace Pseudocode.Command

/-- How the command is called. -/
def usage : Text := "Usage: algo [OPTIONS] [INPUT_FILE]".toList

/-- The help, without the line end that closes it. -/
def helpText : Text :=
  Text.joinLines <| usage :: List.map String.toList
    ["",
     "  Tokenize Algo pseudocode.",
     "",
     "  With INPUT_FILE, print the tokens of the whole file and exit with status 1 if",
     "  it contains lexical errors. Without it, start an interactive prompt that",
     "  tokenizes each line as it is entered.",
     "",
     "  Examples:",
     "      algo                     # Interactive prompt",
     "      algo programme.algo      # Tokenize a file",
     "      algo -v programme.algo   # With debug logging",
     "",
     "Options:",
     "  -v, --verbose  Verbose output (debug logging)",
     "  --version      Show the version and exit.",
     "  --help         Show this message and exit."]

/-- The version of the command. -/
def version : Text := "0.1.0".toList

/-- Texts that are shown instead of anything else. -/
inductive Notice where
  | help
  | version
deriving DecidableEq

/-- What a notice says. -/
def Notice.text : Notice → Text
  | help => helpText
  | version => "algo, version ".toList ++ Command.version

/-- What a call of the command does wrong. -/
inductive UsageError where
  | noSuchOption (name : Text)
  | takesNoValue (name : Text)
  | directory (path : Text)
  /-- What stands at the path may not be read. -/
  | unreadable (path : Text)
  | extraArguments (arguments : List Text)
deriving DecidableEq

namespace UsageError

/-- Why the path is not taken for a file. -/
def invalidFile (path : Text) (why : String) : Text :=
  "Invalid value for '[INPUT_FILE]': File ".toList ++ path.quoted ++ why.toList

/-- What is wrong with the call. Options whose names are close to an unknown one are not
    suggested here. -/
def message : UsageError → Text
  | noSuchOption name => "No such option: ".toList ++ name
  | takesNoValue name => "Option '".toList ++ name ++ "' does not take a value.".toList
  | directory path => invalidFile path " is a directory."
  | unreadable path => invalidFile path " is not readable."
  | extraArguments arguments =>
    (if arguments.length = 1 then "Got unexpected extra argument (" else
      "Got unexpected extra arguments (").toList ++ Text.joinWords arguments ++ [')']

/-- Whether telling the error starts with how the command is called. A value where none belongs
    is told alone: the option itself is right. -/
def showsUsage : UsageError → Bool
  | takesNoValue _ => false
  | noSuchOption _ | directory _ | unreadable _ | extraArguments _ => true

/-- How a wrong call is told. -/
def events (e : UsageError) : List Event :=
  (if e.showsUsage then [.complain (usage ++ "\nTry 'algo --help' for help.\n".toList)] else []) ++
    [.complain ("Error: ".toList ++ e.message)]

end UsageError

end Pseudocode.Command

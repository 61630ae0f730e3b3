import Pseudocode.Command.Arguments
import Pseudocode.Command.Failure
import Pseudocode.Command.Prompt
import Pseudocode.FileTree

/-!
# Runs

A run of the command, from its arguments, its standard input and the files it can reach, to its
outcome. Whether it is verbose is known to all of its parts that put something on record or tell
a failure.
-/

namespace Pseudocode.Command

/-- The files that a run can reach. -/
structure Files where
  isDirectory : Text → Bool
  /-- Whether something stands at the path that may not be read. -/
  isForbidden : Text → Bool
  read : Text → Except ReadFailure (List UInt8)
  /-- The frames of the program that a failure to read comes through, as a trace shows them. -/
  frames : ReadFailure → List Text

namespace Files

/-- The files of a tree, all of which may be read. A tree knows of no frames. -/
def ofTree (tree : FileTree) : Files :=
  ⟨tree.isDirectory, fun _ => false, tree.read, fun _ => []⟩

/-- What keeps the path from being taken for a file, as far as it shows without opening it. A
    path that leads nowhere is taken for a file. -/
def objection? (files : Files) (path : Text) : Option UsageError :=
  if files.isDirectory path then some (.directory path)
  else if files.isForbidden path then some (.unreadable path)
  else none

end Files

/-- The events of a run and its exit code. -/
structure Run where
  events : List Event
  exit : ExitCode

namespace Run

def outcome (r : Run) : Outcome :=
  ⟨r.exit, .ofEvents r.events⟩

/-- The run that a failure ends. -/
def failed (verbose : Bool) (before : List Event) (f : Failure) : Run :=
  ⟨before ++ f.events verbose, f.exitCode⟩

/-- The record that opens a conversation at the prompt. -/
def promptRecord : Text := "Starting interactive prompt".toList

/-- The record that opens the scan of a file. -/
def fileRecord (path : Text) : Text := "Scanning ".toList ++ path

/-- The source in the file of that name. -/
def source (files : Files) (path : Text) : Except ReadFailure Source :=
  files.read path >>= (Source.ofBytes · path)

/-- The run that scans the file of that name: all tokens are shown, and then all diagnostics as
    one failure, if there are any. -/
def ofFile (verbose : Bool) (files : Files) (path : Text) : Run :=
  let opening := Event.records verbose [fileRecord path]
  match source files path with
  | .error e => failed verbose opening (.ofRead e (files.frames e))
  | .ok src =>
    let scan := src.scan
    let shown := opening ++ Event.records verbose scan.records ++ scan.tokens.map (.echo ·.display)
    match scan.diagnostics.group? with
    | some g => failed verbose shown (.ofErrors g)
    | none => ⟨shown, .success⟩

/-- The run that answers the lines of standard input, which end at LF only. -/
def ofInput (verbose : Bool) (input : Text) : Run :=
  ⟨Event.records verbose [promptRecord] ++ (Prompt.run verbose [] input.lines).1, .success⟩

/-- The run that an invocation asks for. A file goes by the normal form of its path. -/
def ofInvocation (verbose : Bool) (files : Files) (input : Text) : Invocation → Run
  | .notice n => ⟨[.echo n.text], .success⟩
  | .prompt => ofInput verbose input
  | .file path => ofFile verbose files (Path.normal path)

/-- The run that ends with telling how the command is used. -/
def misused (e : UsageError) : Run :=
  ⟨e.events, .invalidArguments⟩

end Run

/-- The outcome of a call with sorted arguments. -/
def runSorted (files : Files) (a : Arguments) (input : Text) : Outcome :=
  match a.invocation files.objection? with
  | .error e => (Run.misused e).outcome
  | .ok invocation => (Run.ofInvocation a.verbose files input invocation).outcome

/-- The outcome of a call with these arguments. A call is refused if the file that it names
    cannot even be looked up. -/
def run (files : Files) (arguments : List Text) (input : Text) : Except Refusal Outcome :=
  match Arguments.parse arguments with
  | .error e => .ok (Run.misused e).outcome
  | .ok a =>
    if a.target?.any ('\x00' ∈ ·) then .error .nullCharacter
    else .ok (runSorted files a input)

end Pseudocode.Command

import Pseudocode.Command.Run

/-!
# The command line

The outer layer of the command: it fetches the file that the arguments name, or reads standard
input line by line, and writes what the run says.
-/

namespace Pseudocode.Command

/-- Writes events as they happen. -/
def write (events : List Event) : IO Unit := do
  let stdout ← IO.getStdout
  let stderr ← IO.getStderr
  for event in events do
    stdout.putStr (String.ofList event.stdout)
    stdout.flush
    stderr.putStr (String.ofList event.stderr)

/-- The number of a system error, whose code comes with either sign. -/
def errorNumber (code : UInt32) : Nat :=
  code.toInt32.toInt.natAbs

/-- The failure that a system error on the path stands for. -/
def failureOf (path : Text) (e : IO.Error) : ReadFailure :=
  match e with
  | .noFileOrDirectory _ _ _ => .missing path
  | .permissionDenied _ _ _ => .forbidden path
  | .inappropriateType _ code _ =>
    if errorNumber code = 21 then .directory path else .notDirectory path
  | .invalidArgument _ code _ =>
    if errorNumber code = 36 then .nameTooLong path else .other "OSError".toList (toString e).toList
  | _ => .other "OSError".toList (toString e).toList

/-- The bytes of the file at the path. -/
def fetch (path : Text) : IO (Except ReadFailure (List UInt8)) := do
  if '\x00' ∈ path then return .error .nullCharacter
  try
    let bytes ← IO.FS.readBinFile (String.ofList path)
    return .ok bytes.toList
  catch e => return .error (failureOf path e)

/-- The files that a call with these operands can reach: the one named first, as it is spelled
    and in its normal form. -/
def filesFor (operands : List Text) : IO Files := do
  let path := operands.headD []
  let spelled ← fetch path
  let normal ← fetch (Path.normal path)
  return {
    isDirectory := fun _ => spelled matches .error (.directory _)
    isForbidden := fun _ => spelled matches .error (.forbidden _)
    read := fun _ => normal
    frames := fun _ => [] }

/-- Answers standard input line by line until it ends. -/
partial def converse (verbose : Bool) (collected : Diagnostics) : IO Unit := do
  let stdin ← IO.getStdin
  let line ← stdin.getLine
  if line.isEmpty then return
  let (events, left) := Prompt.perform verbose collected (Prompt.turn line.toList)
  write events
  converse verbose left

/-- Writes a whole run and gives its exit code. -/
def finish (r : Run) : IO ExitCode := do
  write r.events
  return r.exit

/-- Runs the command and gives its exit code. -/
def call (arguments : List Text) : IO ExitCode := do
  match Arguments.parse arguments with
  | .error e => finish (.misused e)
  | .ok a =>
    let files ← filesFor a.operands
    match a.invocation files.objection? with
    | .error e => finish (.misused e)
    | .ok .prompt =>
      write (Event.records a.verbose [Run.promptRecord] ++ [.prompt])
      converse a.verbose []
      finish ⟨[.echo []], .success⟩
    | .ok invocation => finish (.ofInvocation a.verbose files [] invocation)

end Pseudocode.Command

/-- The entry point. -/
def main (arguments : List String) : IO UInt32 := do
  let exit ← Pseudocode.Command.call (arguments.map String.toList)
  return UInt32.ofNat exit.code

import Pseudocode.Command.Outcome
import Pseudocode.ReadFailure

/-!
# Failures

A run that fails says why on standard error and ends with the exit code of the cause. Only
causes that users can mend are errors of theirs: a source with lexical errors, and a file that
is missing, forbidden or no UTF-8. Any other cause counts as internal, and a verbose run shows
its trace as well.
-/

namespace Pseudocode.Command

/-- What makes a run fail. -/
inductive Cause where
  | lexicalErrors
  | missingFile
  | forbiddenFile
  | undecodableFile
  | directory
  /-- Any other fault of the file system. -/
  | system
  | other
deriving DecidableEq

/-- The exit code that a cause leads to. -/
def Cause.exitCode : Cause → ExitCode
  | lexicalErrors => .scanError
  | missingFile | forbiddenFile | undecodableFile => .invalidArguments
  | directory | system | other => .internalError

/-- The cause that an unreadable file is. -/
def Cause.ofRead : ReadFailure → Cause
  | .missing _ => missingFile
  | .forbidden _ => forbiddenFile
  | .undecodable _ => undecodableFile
  | .directory _ => directory
  | .notDirectory _ | .nameTooLong _ | .other _ _ => system
  | .nullCharacter => other

/-- A cause with the words for it and the trace of how it came about. -/
structure Failure where
  cause : Cause
  message : Text
  trace : Text
deriving DecidableEq

namespace Failure

/-- The failure of a scan that found errors. It is never traced: the errors are in the source. -/
def ofErrors (g : ErrorGroup) : Failure := ⟨.lexicalErrors, g.text, []⟩

/-- The failure of a run whose file cannot be read, with the frames that it came through. -/
def ofRead (e : ReadFailure) (frames : List Text) : Failure :=
  ⟨.ofRead e, e.message, e.trace frames⟩

def exitCode (f : Failure) : ExitCode := f.cause.exitCode

/-- How a failure is told. Lexical errors need no heading, they have locations of their own; an
    internal error is followed by its trace if the run is verbose. -/
def events (f : Failure) (verbose : Bool) : List Event :=
  match f.exitCode with
  | .success | .scanError => [.complain f.message]
  | .invalidArguments => [.complain ("Error: ".toList ++ f.message)]
  | .internalError =>
    .complain ("Internal error: ".toList ++ f.message) ::
      if verbose then [.trace f.trace] else []

/-- The outcome of telling the failure and giving up. -/
def outcome (f : Failure) (verbose : Bool) : Outcome :=
  ⟨f.exitCode, .ofEvents (f.events verbose)⟩

end Failure

end Pseudocode.Command

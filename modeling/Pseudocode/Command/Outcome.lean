import Pseudocode.Command.Event

/-!
# Outcomes

What a finished run leaves behind: an exit code and everything it has written.
-/

namespace Pseudocode.Command

inductive ExitCode where
  | success
  /-- The source has lexical errors. -/
  | scanError
  /-- The arguments are wrong, or the file cannot be read. -/
  | invalidArguments
  | internalError
deriving DecidableEq

namespace ExitCode

def all : List ExitCode := [success, scanError, invalidArguments, internalError]

def code : ExitCode → Nat
  | success => 0
  | scanError => 1
  | invalidArguments => 2
  | internalError => 3

def name : ExitCode → Text
  | success => "SUCCESS".toList
  | scanError => "SCAN_ERROR".toList
  | invalidArguments => "INVALID_ARGS".toList
  | internalError => "INTERNAL_ERROR".toList

end ExitCode

/-- What a finished run leaves behind. -/
structure Outcome where
  exit : ExitCode
  transcript : Transcript
deriving DecidableEq

end Pseudocode.Command

import Pseudocode.Command.Usage

/-!
# Arguments

The command takes options, in any place, and at most one file. `Arguments.parse` sorts the
arguments into options and operands, and `Arguments.invocation` decides what is asked for.
Every misuse is a `UsageError`.

A notice, the help or the version, goes before everything but a wrong option.
-/

namespace Pseudocode.Command

/-! ## Sorting arguments -/

/-- Arguments sorted into options and operands. Of several notices the first one counts. -/
structure Arguments where
  verbose : Bool
  notice : Option Notice
  operands : List Text
deriving DecidableEq

namespace Arguments

/-- No arguments. -/
def empty : Arguments := ⟨false, none, []⟩

/-- Asks for a notice, unless one has been asked for before. -/
def withNotice (a : Arguments) (n : Notice) : Arguments :=
  { a with notice := a.notice.orElse fun _ => some n }

/-- What the long option of that name does. -/
def withLongOption? (a : Arguments) (name : Text) : Option Arguments :=
  if name = "--verbose".toList then some { a with verbose := true }
  else if name = "--version".toList then some (a.withNotice .version)
  else if name = "--help".toList then some (a.withNotice .help)
  else none

/-- Takes an option in letters, each of which is an option of its own. -/
def withLetters (a : Arguments) : Text → Except UsageError Arguments
  | [] => .ok a
  | c :: rest =>
    if c = 'v' then withLetters { a with verbose := true } rest
    else .error (.noSuchOption ['-', c])

/-- Takes an option, a text of at least two characters that starts with a hyphen. What follows
    an equals sign is the value of a long option, and none of them takes a value. -/
def withOption (a : Arguments) (option : Text) : Except UsageError Arguments :=
  let name := option.takeWhile (· != '=')
  match a.withLongOption? name with
  | some b => if name = option then .ok b else .error (.takesNoValue name)
  | none =>
    if "--".toList.isPrefixOf option then .error (.noSuchOption name)
    else a.withLetters (option.drop 1)

/-- Takes arguments in turn. A hyphen alone is an operand, and two alone turn all arguments
    after them into operands. -/
def withAll (a : Arguments) : List Text → Except UsageError Arguments
  | [] => .ok a
  | argument :: rest =>
    if argument = "--".toList then .ok { a with operands := a.operands ++ rest }
    else if argument.head? = some '-' ∧ 1 < argument.length then
      match a.withOption argument with
      | .ok b => b.withAll rest
      | .error e => .error e
    else { a with operands := a.operands ++ [argument] }.withAll rest

/-- Sorts the arguments of a call. -/
def parse (arguments : List Text) : Except UsageError Arguments :=
  empty.withAll arguments

end Arguments

/-- The operand that is looked up as a file: the first one, unless a notice is asked for. -/
def Arguments.target? (a : Arguments) : Option Text :=
  if a.notice.isSome then none else a.operands.head?

/-! ## What is asked for -/

/-- What a call asks the command to do. -/
inductive Invocation where
  | notice (n : Notice)
  | prompt
  /-- To scan the file that the argument names. -/
  | file (path : Text)
deriving DecidableEq

/-- What the sorted arguments ask for, if `objection?` says what keeps a path from being taken
    for a file. One file is enough. -/
def Arguments.invocation (a : Arguments) (objection? : Text → Option UsageError) :
    Except UsageError Invocation :=
  match a.notice, a.operands with
  | some n, _ => .ok (.notice n)
  | none, [] => .ok .prompt
  | none, path :: extra =>
    match objection? path with
    | some e => .error e
    | none => if extra.isEmpty then .ok (.file path) else .error (.extraArguments extra)

end Pseudocode.Command

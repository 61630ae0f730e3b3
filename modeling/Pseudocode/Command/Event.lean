import Pseudocode.Text.ControlSequence

/-!
# Events

A run of the command is a list of events in the order in which they happen, and what a user sees
of it is read off them (`Transcript.ofEvents`). Only a verbose run puts anything on record
(`Event.records`).

Echoed text is written without control sequences, and a record as it is. Both end in a line
end; only the mark of the prompt does not.
-/

namespace Pseudocode.Command

/-- Something that a run writes. -/
inductive Event where
  /-- A text on standard output. -/
  | echo (text : Text)
  /-- The mark that asks for the next line, on standard output. -/
  | prompt
  /-- A text on standard error. -/
  | complain (text : Text)
  /-- A record of what is going on, on standard error. -/
  | record (text : Text)
  /-- The trace of an internal error, on standard error. -/
  | trace (text : Text)
deriving DecidableEq

/-- An echoed text as it is written. -/
def echoed (text : Text) : Text :=
  text.withoutControlSequences ++ [Text.lineEnd]

/-- A record as it is written. -/
def logged (record : Text) : Text :=
  "DEBUG: ".toList ++ record ++ [Text.lineEnd]

namespace Event

/-- What the event writes to standard output. -/
def stdout : Event → Text
  | echo text => echoed text
  | prompt => "> ".toList
  | _ => []

/-- What the event writes to standard error. -/
def stderr : Event → Text
  | complain text => echoed text
  | record text => logged text
  | trace text => text ++ [Text.lineEnd]
  | _ => []

/-- What happens when texts are to be put on record: nothing, unless the run is verbose. -/
def records (verbose : Bool) (texts : List Text) : List Event :=
  if verbose then texts.map record else []

end Event

/-- Everything a run has written. -/
structure Transcript where
  stdout : Text
  stderr : Text
deriving DecidableEq

/-- What the events write. -/
def Transcript.ofEvents (events : List Event) : Transcript :=
  ⟨events.flatMap Event.stdout, events.flatMap Event.stderr⟩

end Pseudocode.Command

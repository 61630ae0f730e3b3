import Pseudocode.Command.Event
import Pseudocode.Scan
import Pseudocode.Text.LineEnd

/-!
# The prompt

At the prompt every line is a source of its own: its tokens are shown, then all diagnostics
collected so far, and after that nothing is remembered for the next line. Diagnostics that were
collected before the first line are shown with it.

A conversation is a list of actions (`conversation`), which are taken one after the other
(`perform`). What is collected goes from each of them to the next.
-/

namespace Pseudocode.Command.Prompt

/-- The name of sources typed at the prompt. -/
def file : Text := "<stdin>".toList

/-- A line as a source: without the line ends at its end, and with line number one. -/
def source (line : Text) : Source :=
  .ofText line.dropFinalLineEnds file

/-! ## Actions -/

/-- One thing that is done at the prompt. -/
inductive Action where
  /-- To scan a source and collect its diagnostics. -/
  | scan (source : Source)
  /-- To show tokens. -/
  | list (tokens : List Token)
  /-- To show the diagnostics that are collected. -/
  | complain
  /-- To forget the diagnostics that are collected. -/
  | forget
  /-- To write the mark that asks for a line. -/
  | mark
  /-- To end the line on which the last mark stands. -/
  | close
deriving DecidableEq

/-- What happens when the action is taken, and what is collected after it. -/
def Action.take (verbose : Bool) (collected : Diagnostics) : Action → List Event × Diagnostics
  | scan source => (Event.records verbose source.scan.records, collected ++ source.scan.diagnostics)
  | list tokens => (tokens.map (.echo ·.display), collected)
  | complain => (collected.map (.complain ·.text), collected)
  | forget => ([], [])
  | mark => ([.prompt], collected)
  | close => ([.echo []], collected)

/-- What happens when the actions are taken in turn, and what is collected after the last. -/
def perform (verbose : Bool) (collected : Diagnostics) : List Action → List Event × Diagnostics
  | [] => ([], collected)
  | action :: rest =>
    let (now, left) := action.take verbose collected
    let (later, final) := perform verbose left rest
    (now ++ later, final)

/-! ## Conversations -/

/-- What is done about a line. -/
def turn (line : Text) : List Action :=
  let source := source line
  [.scan source, .list source.scan.tokens, .complain, .forget, .mark]

/-- What is done about lines: the first mark, a turn for each line, and an end to the line on which
    the last mark stands. -/
def conversation (lines : List Text) : List Action :=
  .mark :: lines.flatMap turn ++ [.close]

/-- A whole conversation, begun with what has been collected before it. -/
def run (verbose : Bool) (collected : Diagnostics) (lines : List Text) :
    List Event × Diagnostics :=
  perform verbose collected (conversation lines)

end Pseudocode.Command.Prompt

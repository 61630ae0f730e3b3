import Pseudocode.Command.Prompt
import Pseudocode.FileTree

/-!
# Sessions

A session collects the diagnostics of many scans. It has sources open under names, each of
which is scanned at most once: a second request gets the first scan again and collects nothing.
Collected diagnostics stay until they are cleared or shown at the prompt. A scan that has been
given out stays as it was, and its diagnostics can be asked for as one error at any time later.

`Session.step` takes one request and gives the answer and the session after it. A refused
request changes nothing. A file can be scanned into a session as well (`Session.scanFile`).
-/

namespace Pseudocode

/-- A source that is open in a session. -/
structure OpenSource where
  source : Source
  /-- Whether its diagnostics are collected. -/
  collects : Bool
  /-- Its scan, once it has been scanned. -/
  scan : Option Scan

structure Session where
  collected : Diagnostics
  /-- The open sources by name, the newest first; no name stands twice. -/
  opened : List (Text × OpenSource)
  /-- The scans that have been given out, in order. -/
  given : List Scan
  /-- The group that was raised last. -/
  lastGroup : Option ErrorGroup

namespace Session

/-- A session in which nothing has happened. -/
def start : Session := ⟨[], [], [], none⟩

/-- The source that is open under the name. -/
def find? (s : Session) (name : Text) : Option OpenSource :=
  s.opened.lookup name

/-- Opens a source under a name, which then stands for no other source. -/
def put (s : Session) (name : Text) (o : OpenSource) : Session :=
  { s with opened := (name, o) :: s.opened.filter (·.1 != name) }

/-- Collects diagnostics behind those collected before. -/
def collect (s : Session) (ds : Diagnostics) : Session :=
  { s with collected := s.collected ++ ds }

/-- Gives out a scan. -/
def give (s : Session) (scan : Scan) : Session :=
  { s with given := s.given ++ [scan] }

/-- What can be asked of a session. -/
inductive Request where
  /-- Scan a source and collect its diagnostics. -/
  | scan (source : Source)
  /-- Open a source without scanning it. -/
  | openSource (name : Text) (source : Source) (collects : Bool)
  /-- Scan an open source. -/
  | run (name : Text)
  /-- The diagnostics of a scanned source as one error. -/
  | group (name : Text)
  /-- The diagnostics of a scan that has been given out, by its number, as one error. -/
  | gate (number : Nat)
  | add (d : Diagnostic)
  | clear
  | hasErrors
  /-- How many diagnostics are collected. -/
  | errorCount
  | report
  /-- Raise the collected diagnostics as one error, if there are any. -/
  | raise
  /-- The group that was raised last. -/
  | lastGroup
  /-- Answer lines at the prompt. -/
  | prompt (lines : List Text)

inductive Answer where
  | done
  | scanned (scan : Scan)
  /-- The scan of an open source, and whether it had been scanned before. -/
  | ran (cached : Bool) (scan : Scan)
  /-- The diagnostics of a scan as one error, if it has any. -/
  | group (group : Option ErrorGroup)
  | truth (b : Bool)
  | count (n : Nat)
  | text (s : Text)
  /-- The group that was raised last, if one was raised. -/
  | lastGroup (group : Option ErrorGroup)
  | transcript (t : Command.Transcript)

/-- Scans an open source, unless it has been scanned before, and gives out its scan. -/
def run (s : Session) (name : Text) (o : OpenSource) : Answer × Session :=
  match o.scan with
  | some scan => (.ran true scan, s.give scan)
  | none =>
    let scan := o.source.scan
    let after := (s.put name { o with scan := some scan }).give scan
    (.ran false scan, if o.collects then after.collect scan.diagnostics else after)

/-- The answer to a request, and the session after it. -/
def step (s : Session) : Request → Except Refusal Answer × Session
  | .scan source =>
    let scan := source.scan
    (.ok (.scanned scan), (s.give scan).collect scan.diagnostics)
  | .openSource name source collects => (.ok .done, s.put name ⟨source, collects, none⟩)
  | .run name =>
    match s.find? name with
    | none => (.error (.unknownSource name), s)
    | some o =>
      let (answer, after) := s.run name o
      (.ok answer, after)
  | .group name =>
    match (s.find? name).bind OpenSource.scan with
    | none => (.error (.unknownSource name), s)
    | some scan => (.ok (.group scan.diagnostics.group?), s)
  | .gate number =>
    match s.given[number]? with
    | none => (.error (.unknownScan number), s)
    | some scan => (.ok (.group scan.diagnostics.group?), s)
  | .add d => (.ok .done, s.collect [d])
  | .clear => (.ok .done, { s with collected := [] })
  | .hasErrors => (.ok (.truth !s.collected.isEmpty), s)
  | .errorCount => (.ok (.count s.collected.length), s)
  | .report => (.ok (.text s.collected.report), s)
  | .raise =>
    match s.collected.group? with
    | some g => (.ok (.truth true), { s with lastGroup := some g })
    | none => (.ok (.truth false), s)
  | .lastGroup => (.ok (.lastGroup s.lastGroup), s)
  | .prompt lines =>
    let (events, left) := Command.Prompt.run false s.collected lines
    (.ok (.transcript (.ofEvents events)), { s with collected := left })

/-- The scan of the file that the path leads to, and the session with its diagnostics collected.
    The scan is given out as any other. A file that cannot be read changes nothing. -/
def scanFile (s : Session) (tree : FileTree) (path : Text) : Except ReadFailure Scan × Session :=
  match tree.scan path with
  | .error e => (.error e, s)
  | .ok scan => (.ok scan, (s.give scan).collect scan.diagnostics)

end Session

end Pseudocode

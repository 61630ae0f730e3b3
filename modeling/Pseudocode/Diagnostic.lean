import Pseudocode.Refusal

/-!
# Diagnostics

A diagnostic says what is wrong in a source and where: a fault, and if they are known its
location and the line of source text that it stands on. `Diagnostic.text` shows it: the message
behind the location, the source line with a mark under the column, and a hint. A diagnostic
whose location has a number too long to be written cannot be made (`Diagnostic.made`).

No fault makes a scan fail. Diagnostics are collected, and whoever asked for the scan decides what
they amount to: `Diagnostics.report` shows them all, `Diagnostics.group?` makes
one `ErrorGroup` of them if there are any.
-/

namespace Pseudocode

/-! ## Locations -/

/-- A place in a source. Lines and columns count from one; column zero is an unknown column. -/
structure Location where
  file : Text
  line : Int
  column : Int
deriving DecidableEq

/-- File, line and, if it is known, column, with colons between. -/
def Location.text (l : Location) : Text :=
  l.file ++ ':' :: Text.ofInt l.line ++ if 0 < l.column then ':' :: Text.ofInt l.column else []

/-- Whether the numbers that the text of the location shows can be written. -/
def Location.isWritable (l : Location) : Bool :=
  Text.isWritable l.line && (l.column ≤ 0 || Text.isWritable l.column)

/-- The text of the location, if it can be written. -/
def Location.text? (l : Location) : Except Refusal Text :=
  if l.isWritable then .ok l.text else .error .tooManyDigits

/-! ## Faults -/

/-- What is wrong. -/
inductive Fault where
  /-- A fault in the words of whoever reports it, with a hint how to mend it. -/
  | general (message : Text) (hint : Option Text)
  /-- The character starts nothing that the language knows. -/
  | unexpectedCharacter (c : Char)
  /-- The quote that closes a string is missing. -/
  | unterminatedString
deriving DecidableEq

namespace Fault

/-- The fault of the one character that the text consists of. -/
def ofCharacterText : Text → Except Refusal Fault
  | [c] => .ok (unexpectedCharacter c)
  | s => .error (.notOneCharacter s.length)

/-- The message names an unexpected character and its code point. -/
def message : Fault → Text
  | general message _ => message
  | unexpectedCharacter c =>
    "unexpected character '".toList ++ c :: "' (U+".toList ++ Text.hexCapital 4 c.toNat ++ [')']
  | unterminatedString => "unterminated string".toList

def hint : Fault → Option Text
  | general _ hint => hint
  | unexpectedCharacter _ => none
  | unterminatedString => some "add closing '\"' to complete the string".toList

end Fault

/-! ## Diagnostics -/

structure Diagnostic where
  fault : Fault
  location : Option Location
  sourceLine : Option Text
deriving DecidableEq

namespace Diagnostic

def message (d : Diagnostic) : Text := d.fault.message

def hint (d : Diagnostic) : Option Text := d.fault.hint

/-- How far source text is set in. -/
def indent : Nat := 4

/-- The message, behind its location if that is known. -/
def headline (d : Diagnostic) : Text :=
  match d.location with
  | some l => l.text ++ ": error: ".toList ++ d.message
  | none => "error: ".toList ++ d.message

/-- The source line, and under it a mark at the column. Neither is shown without a location,
    and the mark only where the column is known. -/
def excerpt (d : Diagnostic) : List Text :=
  match d.sourceLine, d.location with
  | some line, some l =>
    (List.replicate indent ' ' ++ line) ::
      if 0 < l.column then [List.replicate (indent + l.column.toNat - 1) ' ' ++ ['^']] else []
  | _, _ => []

/-- The hint, unless it is missing or empty. -/
def advice (d : Diagnostic) : List Text :=
  match d.hint with
  | none | some [] => []
  | some hint => ["hint: ".toList ++ hint]

/-- The lines that show the diagnostic. -/
def lines (d : Diagnostic) : List Text :=
  d.headline :: d.excerpt ++ d.advice

/-- The diagnostic as it is shown. -/
def text (d : Diagnostic) : Text :=
  Text.joinLines d.lines

/-- The diagnostic as it is made. It is put into words at once, and that takes a location that
    can be written. -/
def made (d : Diagnostic) : Except Refusal Diagnostic :=
  match d.location with
  | some l => l.text?.map fun _ => d
  | none => .ok d

/-- The diagnostic as it is put on record. -/
def record (d : Diagnostic) : Text :=
  "Lexical error: ".toList ++ d.message ++ " at ".toList ++
    match d.location with
    | some l => l.text
    | none => "None".toList

end Diagnostic

/-! ## Collected diagnostics -/

/-- Diagnostics in the order in which they were found. -/
abbrev Diagnostics := List Diagnostic

/-- At least one diagnostic, as one error. -/
structure ErrorGroup where
  errors : Diagnostics
  nonempty : errors ≠ []

namespace Diagnostics

/-- How many there are, in words. -/
def summary (ds : Diagnostics) : Text :=
  Text.ofNat ds.length ++ (if ds.length = 1 then " error" else " errors").toList

/-- All diagnostics, and under them how many there are. -/
def report (ds : Diagnostics) : Text :=
  Text.joinLines (ds.map Diagnostic.text ++ [ds.summary])

/-- The diagnostics as one error, if there are any. -/
def group? (ds : Diagnostics) : Option ErrorGroup :=
  if h : ds = [] then none else some ⟨ds, h⟩

end Diagnostics

/-- A group shows as the report of its errors. -/
def ErrorGroup.text (g : ErrorGroup) : Text :=
  g.errors.report

end Pseudocode

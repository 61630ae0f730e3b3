import Pseudocode.Cursor
import Pseudocode.Piece
import Pseudocode.Token

/-!
# Scanning

Scanning a source cuts its text into pieces, sets a cursor before each of them (`placed`), and
reads off what every placed piece amounts to: a lexeme is a token, a stray character and an
open string are diagnostics, and blanks and comments are nothing. One end token closes the
list of tokens.

Scanning never stops at a fault: what follows a stray character is scanned as ever. Only a line
number that is too long to be written makes a scan break off (`Source.scan?`).
-/

namespace Pseudocode

/-! ## Sources -/

/-- The name of a source that has no other. -/
def defaultFile : Text := "<input>".toList

/-- A text to be scanned, with the name and the first line number that locations show. -/
structure Source where
  text : Text
  file : Text
  line : Int
deriving DecidableEq

/-- The source with the text, from line one on. -/
def Source.ofText (text : Text) (file : Text) : Source := ⟨text, file, 1⟩

/-! ## Placed pieces -/

/-- A piece of a source with its place: the cursor before it and the pieces behind it. -/
structure Placed where
  piece : Piece
  start : Cursor
  following : List Piece

/-- Places pieces one behind the other, the first one at the cursor. -/
def placed (cur : Cursor) : List Piece → List Placed
  | [] => []
  | p :: ps => ⟨p, cur, ps⟩ :: placed (cur.advance p.text) ps

/-- What the pieces show before the first line end. -/
def lineRest : List Piece → Text
  | [] => []
  | p :: ps =>
    if Text.lineEnd ∈ p.text then p.text.takeWhile (· != Text.lineEnd)
    else p.text ++ lineRest ps

namespace Placed

/-- The cursor behind the piece. -/
def stop (p : Placed) : Cursor :=
  p.start.advance p.piece.text

/-- The token of a lexeme, which belongs to the line on which the lexeme ends. -/
def token? (p : Placed) : Option Token :=
  match p.piece with
  | .lexeme l => some (l.token p.stop.line)
  | _ => none

/-- The diagnostic of a stray character, located at it, or of an open string, located behind
    it, where the quote is missing. -/
def diagnostic? (file : Text) (p : Placed) : Option Diagnostic :=
  match p.piece with
  | .stray c =>
    some (p.start.diagnose file (.unexpectedCharacter c) (lineRest (p.piece :: p.following)))
  | .openString _ => some (p.stop.diagnose file .unterminatedString (lineRest p.following))
  | _ => none

end Placed

/-! ## Scans -/

/-- What was found in a source. -/
structure Scan where
  file : Text
  tokens : List Token
  diagnostics : Diagnostics
deriving DecidableEq

namespace Source

/-- The pieces of the source in their places. -/
def placed (src : Source) : List Placed :=
  Pseudocode.placed (.atLine src.line) (pieces src.text)

/-- The cursor behind the whole text. -/
def stop (src : Source) : Cursor :=
  (Cursor.atLine src.line).advance src.text

def tokens (src : Source) : List Token :=
  src.placed.filterMap Placed.token? ++ [.eof src.stop.line]

def diagnostics (src : Source) : Diagnostics :=
  src.placed.filterMap (Placed.diagnostic? src.file)

def scan (src : Source) : Scan :=
  ⟨src.file, src.tokens, src.diagnostics⟩

/-- The scan as it is carried out. Diagnostics are made as they are found, and one that cannot be
    made breaks the scan off. -/
def scan? (src : Source) : Except Refusal Scan := do
  let diagnostics ← src.diagnostics.mapM Diagnostic.made
  return ⟨src.file, src.tokens, diagnostics⟩

end Source

namespace Scan

def hasErrors (s : Scan) : Bool :=
  !s.diagnostics.isEmpty

/-- How many tokens and diagnostics were found; the end token counts. -/
def counts (s : Scan) : Text :=
  "Scanned ".toList ++ s.file ++ ": ".toList ++ Text.ofNat s.tokens.length ++
    " tokens, ".toList ++ Text.ofNat s.diagnostics.length ++ " errors".toList

/-- How the scan is put on record: every diagnostic, then the counts. -/
def records (s : Scan) : List Text :=
  s.diagnostics.map Diagnostic.record ++ [s.counts]

end Scan

end Pseudocode

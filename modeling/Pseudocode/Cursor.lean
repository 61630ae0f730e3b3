import Pseudocode.Diagnostic

/-!
# Cursors

A cursor is a place in a text, known by its line and by what it has passed on that line. It
advances character by character (`Cursor.step`), so its place after a text is a fold over the
text, and advancing over two texts in turn is advancing over both (`Cursor.advance_append`).
-/

namespace Pseudocode

structure Cursor where
  line : Int
  /-- What stands before the cursor on its line, the nearest character first. -/
  passed : Text
deriving DecidableEq

namespace Cursor

/-- The start of the line. -/
def atLine (line : Int) : Cursor := ⟨line, []⟩

/-- Passes one character; a line end leads to the start of the next line. -/
def step (cur : Cursor) (c : Char) : Cursor :=
  if c = Text.lineEnd then ⟨cur.line + 1, []⟩ else ⟨cur.line, c :: cur.passed⟩

/-- Passes a text. -/
def advance (cur : Cursor) (s : Text) : Cursor :=
  s.foldl step cur

@[simp] theorem advance_nil (cur : Cursor) : cur.advance [] = cur := rfl

@[simp] theorem advance_cons (cur : Cursor) (c : Char) (s : Text) :
    cur.advance (c :: s) = (cur.step c).advance s := rfl

theorem advance_append (cur : Cursor) (s t : Text) :
    cur.advance (s ++ t) = (cur.advance s).advance t :=
  List.foldl_append

/-- The column of the character that follows the cursor, counted from one. -/
def column (cur : Cursor) : Nat :=
  cur.passed.length + 1

/-- The location of the character that follows the cursor. -/
def location (cur : Cursor) (file : Text) : Location :=
  ⟨file, cur.line, cur.column⟩

/-- The line of the cursor, where `rest` is what follows on that line. -/
def lineWith (cur : Cursor) (rest : Text) : Text :=
  cur.passed.reverse ++ rest

/-- The diagnostic of a fault at the cursor, where `rest` is what follows on its line. -/
def diagnose (cur : Cursor) (file : Text) (fault : Fault) (rest : Text) : Diagnostic :=
  ⟨fault, some (cur.location file), some (cur.lineWith rest)⟩

end Cursor

end Pseudocode

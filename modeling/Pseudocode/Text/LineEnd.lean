import Pseudocode.Text

/-!
# Line ends

A text that comes from a file may end its lines with LF, CR LF or CR. Reading it turns all three
into LF (`unifyLineEnds`), and after that lines end at LF only, as those of standard input do from
the start (`lines`).
Nothing is lost by cutting a text into lines: `flatten_lines`.
-/

namespace Pseudocode.Text

/-- Every CR LF and every lone CR becomes one LF. -/
def unifyLineEnds : Text → Text
  | [] => []
  | '\r' :: '\n' :: rest => '\n' :: unifyLineEnds rest
  | '\r' :: rest => '\n' :: unifyLineEnds rest
  | c :: rest => c :: unifyLineEnds rest

/-- The lines of a text, each with the LF that ends it. The last one may lack its LF, and is
    never empty. -/
def lines : Text → List Text
  | [] => []
  | c :: rest =>
    if c = lineEnd then [c] :: lines rest
    else
      match lines rest with
      | [] => [[c]]
      | line :: more => (c :: line) :: more

/-- The text without the LFs at its end. -/
def dropFinalLineEnds (s : Text) : Text :=
  (s.reverse.dropWhile (· == lineEnd)).reverse

theorem flatten_lines (s : Text) : (lines s).flatten = s := by
  induction s with
  | nil => rfl
  | cons c rest ih =>
      unfold lines
      split
      · simp [ih]
      · cases h : lines rest with
        | nil => simpa [h] using ih
        | cons line more => simpa [h] using ih

end Pseudocode.Text

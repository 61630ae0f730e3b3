import Pseudocode.Double.Written
import Pseudocode.Kind

/-!
# Lexemes

The meaningful pieces of source text: operators, words, numbers and strings. A lexeme is
written in one way (`Lexeme.text`), and what it means follows from it alone: its kind and its
literal value (`Lexeme.kind`, `Lexeme.literal`).

Not every value of `Lexeme` can be written and read again: `Lexeme.WellFormed` says which
texts words, numbers and strings are made of.
-/

namespace Pseudocode

/-! ## Characters -/

/-- Separates lexemes and is otherwise without meaning. -/
def isBlank (c : Char) : Bool :=
  c == ' ' || c == '\t' || c == '\r' || c == '\n'

/-- Starts a word: an ASCII letter or the underscore. -/
def isWordStart (c : Char) : Bool :=
  c.isAlpha || c == '_'

/-- Continues a word: what starts one, or a digit. -/
def isWordPart (c : Char) : Bool :=
  isWordStart c || c.isDigit

theorem isWordPart_of_isWordStart {c : Char} (start : isWordStart c) : isWordPart c := by
  rw [isWordPart, start, Bool.true_or]

theorem isWordPart_of_isDigit {c : Char} (digit : c.isDigit) : isWordPart c := by
  rw [isWordPart, digit, Bool.or_true]

/-- Opens and closes a string. -/
abbrev quoteChar : Char := '"'

/-! ## Literals -/

/-- The value of a string or of a number. -/
inductive Literal where
  | text (s : Text)
  | number (x : Double)
deriving DecidableEq

namespace Literal

/-- Equality of values; numbers agree as `Double.agrees` says. -/
def agrees : Literal → Literal → Bool
  | text s, text t => s = t
  | number x, number y => x.agrees y
  | _, _ => false

end Literal

/-! ## Lexemes -/

/-- A piece of source text with a meaning. A number has digits before its point and, if it has
    a point, digits behind it; the body of a string is what stands between the quotes. -/
inductive Lexeme where
  | operator (o : Operator)
  | word (letters : Text)
  | number (whole : Text) (fraction : Option Text)
  | string (body : Text)
deriving DecidableEq

namespace Lexeme

/-- The source text of a lexeme. -/
def text : Lexeme → Text
  | operator o => o.spelling
  | word letters => letters
  | number whole none => whole
  | number whole (some fraction) => whole ++ '.' :: fraction
  | string body => quoteChar :: body ++ [quoteChar]

/-- What the lexeme is. -/
def kind : Lexeme → Kind
  | operator o => .operator o
  | word letters => .ofWord letters
  | number _ _ => .number
  | string _ => .string

/-- The value that the lexeme denotes, if it denotes one. -/
def literal : Lexeme → Option Literal
  | operator _ | word _ => none
  | number whole fraction =>
    some (.number (.ofDecimal false (.ofDigits whole (fraction.getD []) 0)))
  | string body => some (.text body)

/-- What words, numbers and strings are made of: a word starts with a letter or an underscore,
    a number has a digit wherever it may have digits, and a string body has no quote. -/
def WellFormed : Lexeme → Prop
  | operator _ => True
  | word letters => ∃ c rest, letters = c :: rest ∧ isWordStart c ∧ ∀ d ∈ rest, isWordPart d
  | number whole fraction =>
    (whole ≠ [] ∧ ∀ d ∈ whole, d.isDigit) ∧
      ∀ digits ∈ fraction, digits ≠ [] ∧ ∀ d ∈ digits, d.isDigit
  | string body => quoteChar ∉ body

/-- A word consists of parts of words, its first character among them. -/
theorem WellFormed.forall_isWordPart {letters : Text} (wf : (word letters).WellFormed) :
    ∀ d ∈ letters, isWordPart d := by
  obtain ⟨c, rest, rfl, start, parts⟩ := wf
  intro d mem
  rcases List.mem_cons.mp mem with rfl | mem
  · exact isWordPart_of_isWordStart start
  · exact parts d mem

end Lexeme

end Pseudocode

/-!
# Text

Source text, lexemes and messages are lists of characters: a length counts characters, a
column is a length, and a proof goes by induction on the text.

This module also writes numbers as text. Every digit of a natural number comes from
`Nat.toDigits`, so the core lemmas on `Nat.ofDigitChars` read the number back.
-/

namespace Pseudocode

/-- A text is the list of its characters. -/
abbrev Text := List Char

namespace Text

/-- The line end: the one character that starts a new line. -/
abbrev lineEnd : Char := '\n'

theorem bne_of_mem {s : Text} {c d : Char} (absent : c ∉ s) (mem : d ∈ s) : (d != c) = true :=
  bne_iff_ne.mpr fun same => absent (same ▸ mem)

/-- Lines set under each other: a line end stands between neighbours, none after the last. -/
def joinLines (lines : List Text) : Text :=
  List.intercalate [lineEnd] lines

/-- The items of an enumeration, a blank between neighbours. -/
def joinWords (words : List Text) : Text :=
  List.intercalate [' '] words

/-- A natural number in base ten. -/
def ofNat (n : Nat) : Text :=
  Nat.toDigits 10 n

/-- An integer in base ten, with a sign only if it is negative. -/
def ofInt : Int → Text
  | .ofNat n => ofNat n
  | .negSucc n => '-' :: ofNat (n + 1)

/-- The most digits that an integer is written with. -/
def digitLimit : Nat := 4300

/-- Whether an integer can be written: none that is longer than the limit can. -/
def isWritable (n : Int) : Bool :=
  (ofNat n.natAbs).length ≤ digitLimit

/-- Digits brought to at least `width` places by zeros in front. -/
def padded (width : Nat) (digits : Text) : Text :=
  List.replicate (width - digits.length) '0' ++ digits

/-- At least `width` hexadecimal digits, in small letters. -/
def hex (width n : Nat) : Text :=
  padded width (Nat.toDigits 16 n)

/-- At least `width` hexadecimal digits, in capitals. -/
def hexCapital (width n : Nat) : Text :=
  padded width ((Nat.toDigits 16 n).map Char.toUpper)

end Text

end Pseudocode

import Pseudocode.Double.Nearest
import Pseudocode.Text

/-!
# Decimal numbers

A decimal number is a whole coefficient and a power of ten. It reads as the double that it
rounds to (`Double.ofDecimal`). Decimal numbers far outside the range of the doubles are not
computed: from `10 ^ 310` on everything reads as infinity, and below `10 ^ -330` as zero.

`Decimal.parse?` and `Double.parse?` read the written form: digits with an optional point, an
optional exponent, an optional sign, and the words for infinity and NaN.
-/

namespace Pseudocode

/-- The number `coefficient * 10 ^ exponent`. -/
structure Decimal where
  coefficient : Nat
  exponent : Int
deriving DecidableEq

namespace Decimal

/-- The number of units of `2 ^ -1074` in the decimal number. -/
def units (d : Decimal) : Fraction :=
  (Fraction.ofNat (d.coefficient * unitsPerOne)).scaleTen d.exponent

/-- The number with the digits `whole`, a point, the digits `fraction`, times `10 ^ exponent`. -/
def ofDigits (whole fraction : Text) (exponent : Int) : Decimal :=
  ⟨Nat.ofDigitChars 10 (whole ++ fraction) 0, exponent - fraction.length⟩

/-- The least `size` with the number below `10 ^ size`. -/
def size (d : Decimal) : Int :=
  (Text.ofNat d.coefficient).length + d.exponent

/-- The magnitude that the number rounds to. -/
def magnitude (d : Decimal) : Magnitude :=
  if d.coefficient = 0 ∨ d.size < -330 then .zero
  else if 310 < d.size then .infinite
  else .nearest d.units

/-- An exponent: digits with an optional sign. -/
def parseExponent? (s : Text) : Option Int :=
  let (negative, digits) : Bool × Text :=
    match s with
    | '-' :: rest => (true, rest)
    | '+' :: rest => (false, rest)
    | _ => (false, s)
  if digits.isEmpty || digits.any (! Char.isDigit ·) then none
  else
    let size := Nat.ofDigitChars 10 digits 0
    some (if negative then -(size : Int) else size)

/-- Digits with an optional point and an optional exponent; at least one digit stands before
    or after the point. -/
def parse? (s : Text) : Option Decimal :=
  let whole := s.takeWhile Char.isDigit
  let rest := s.dropWhile Char.isDigit
  let (fraction, rest) : Text × Text :=
    match rest with
    | '.' :: tail => (tail.takeWhile Char.isDigit, tail.dropWhile Char.isDigit)
    | _ => ([], rest)
  if whole.isEmpty && fraction.isEmpty then none
  else
    match rest with
    | [] => some (ofDigits whole fraction 0)
    | e :: tail =>
      if e = 'e' ∨ e = 'E' then (parseExponent? tail).map (ofDigits whole fraction)
      else none

end Decimal

namespace Double

/-- The double that the decimal number, taken with the sign, rounds to. -/
def ofDecimal (negative : Bool) (d : Decimal) : Double :=
  .signed negative d.magnitude

/-- A number without its sign, or the word for infinity or NaN in letters of either case. -/
def parseUnsigned? (negative : Bool) (s : Text) : Option Double :=
  let word := s.map Char.toLower
  if word = "inf".toList ∨ word = "infinity".toList then some (.signed negative .infinite)
  else if word = "nan".toList then some .nan
  else (Decimal.parse? s).map (ofDecimal negative)

/-- The number that the text writes, if it writes one. -/
def parse? : Text → Option Double
  | '-' :: rest => parseUnsigned? true rest
  | '+' :: rest => parseUnsigned? false rest
  | s => parseUnsigned? false s

end Double

end Pseudocode

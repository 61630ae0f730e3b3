import Pseudocode.Double.Shortest

/-!
# Written doubles

The written form of a double: the shortest decimal form, with a point in place or with an
exponent, as `NumberStyle` lays down. `Double.style` is the one style of this library.
-/

namespace Pseudocode

/-- How the digits of a number are laid out, by the exponent `e` of its first digit. -/
structure NumberStyle where
  /-- The least `e` at which the number is written without an exponent. -/
  positionalFrom : Int
  /-- The least greater `e` at which it is written with an exponent again. -/
  positionalBelow : Int
  /-- The least number of digits of an exponent. -/
  exponentWidth : Nat

/-- Numbers from 0.0001 up to `10 ^ 16` are written without an exponent; an exponent has a sign
    and at least two digits. -/
def Double.style : NumberStyle := ⟨-4, 16, 2⟩

/-- Digits with the point behind the first of them, times `10 ^ exponent`. -/
structure Scientific where
  digits : Text
  exponent : Int

/-- The digits of a decimal number without the zeros at their end; zero keeps one. -/
def Decimal.scientific (d : Decimal) : Scientific :=
  let digits := Text.ofNat d.coefficient
  let significant := (digits.reverse.dropWhile (· == '0')).reverse
  if significant.isEmpty then ⟨['0'], 0⟩
  else ⟨significant, digits.length - 1 + d.exponent⟩

namespace Scientific

/-- The number without an exponent; a digit stands on both sides of the point. -/
def positional (s : Scientific) : Text :=
  match s.exponent with
  | .ofNat e =>
    let fraction := s.digits.drop (e + 1)
    s.digits.take (e + 1) ++ List.replicate (e + 1 - s.digits.length) '0' ++
      '.' :: (if fraction.isEmpty then ['0'] else fraction)
  | .negSucc e => '0' :: '.' :: List.replicate e '0' ++ s.digits

/-- The number with an exponent; a point stands only before further digits. -/
def withExponent (s : Scientific) (width : Nat) : Text :=
  let fraction := s.digits.drop 1
  s.digits.take 1 ++ (if fraction.isEmpty then [] else '.' :: fraction) ++
    'e' :: (if s.exponent < 0 then '-' else '+') ::
      Text.padded width (Text.ofNat s.exponent.natAbs)

/-- The number in the style. -/
def text (s : Scientific) (style : NumberStyle) : Text :=
  if style.positionalFrom ≤ s.exponent ∧ s.exponent < style.positionalBelow then s.positional
  else s.withExponent style.exponentWidth

end Scientific

/-- The written form of a magnitude. -/
def Magnitude.text (m : Magnitude) : Text :=
  if m.isInfinite then "inf".toList
  else if m.rank = 0 then Scientific.text ⟨['0'], 0⟩ Double.style
  else m.shortest.scientific.text Double.style

/-- The written form of a double, with a sign only if it is negative. -/
def Double.text : Double → Text
  | .nan => "nan".toList
  | .signed negative m => (if negative then ['-'] else []) ++ m.text

end Pseudocode

import Pseudocode.Double.Decimal

/-!
# Shortest decimal form

A double is written with the fewest digits that read back as the same double; of several
numbers with that many digits, the nearest one.

With `n` digits the candidates lie on the grid of the multiples of a power of ten, and if any
of them reads back, so does one of the two neighbours of the value on that grid. So for
1, 2, … digits the two neighbours are tried (`Magnitude.onGrid?`), and the first success is the
answer. Seventeen digits always suffice; the exact decimal value stands behind them, so that
the answer reads back whatever was tried before.
-/

namespace Pseudocode

namespace Magnitude

/-- The value as a fraction. -/
def value (m : Magnitude) : Fraction := ⟨m.units, unitsPerOne, unitsPerOne_pos⟩

/-- The exponent `e` with `10 ^ e ≤ value < 10 ^ (e + 1)`, for a positive finite value. -/
def decimalExponent (m : Magnitude) : Int :=
  if unitsPerOne ≤ m.units then (Text.ofNat (m.units / unitsPerOne)).length - 1
  else
    let places := (Text.ofNat (unitsPerOne / m.units)).length
    if unitsPerOne ≤ m.units * Nat.pow 10 (places - 1) then 1 - (places : Int)
    else -(places : Int)

/-- A multiple of `10 ^ e` that reads back as the magnitude, if one of the two multiples around
    it does. Of two, the nearer, and of two equally near, the even multiple. -/
def onGrid? (m : Magnitude) (e : Int) : Option Decimal :=
  let scaled := m.value.scaleTen (-e)
  let low := scaled.floor
  let rest := 2 * (scaled.num % scaled.den)
  let below : Decimal := ⟨low, e⟩
  let above : Decimal := ⟨low + 1, e⟩
  let belowFirst := rest < scaled.den || (rest = scaled.den && low % 2 = 0)
  let candidates := if belowFirst then [below, above] else [above, below]
  candidates.find? fun d => m.covers d.units

/-- The exact decimal value: a unit is `5 ^ 1074 * 10 ^ -1074`. -/
def exact (m : Magnitude) : Decimal :=
  ⟨m.units * Nat.pow 5 1074, -1074⟩

/-- The shortest decimal number that reads back as the positive finite magnitude. -/
def shortest (m : Magnitude) : Decimal :=
  let top := m.decimalExponent
  ((List.range 17).findSome? fun n : Nat => m.onGrid? (top - n)).getD m.exact

end Magnitude

end Pseudocode

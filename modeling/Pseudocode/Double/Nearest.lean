import Pseudocode.Double

/-!
# The nearest double

Every nonnegative rational number has one binary64 magnitude that it rounds to: the nearest
one, and of two nearest ones the one of even rank (whose last bit is zero). The rationals that
round to a magnitude form an interval between the midpoints to its two neighbours, and the
midpoints belong to it exactly if the rank is even; `Magnitude.covers` decides membership and
`Magnitude.nearest` finds the magnitude.
-/

namespace Pseudocode

/-- A nonnegative rational number. -/
structure Fraction where
  num : Nat
  den : Nat
  den_pos : 0 < den
deriving DecidableEq

namespace Fraction

def ofNat (n : Nat) : Fraction := ⟨n, 1, by decide⟩

/-- The fraction times `10 ^ e`. -/
def scaleTen (x : Fraction) : Int → Fraction
  | .ofNat k => ⟨x.num * Nat.pow 10 k, x.den, x.den_pos⟩
  | .negSucc k =>
    ⟨x.num, x.den * Nat.pow 10 (k + 1), Nat.mul_pos x.den_pos (Nat.pow_pos (by decide))⟩

/-- The greatest whole number that is at most the fraction. -/
def floor (x : Fraction) : Nat := x.num / x.den

end Fraction

/-- Whether the fraction, in units, lies between the midpoints to the neighbours of the value
    of rank `rank`, the midpoints included if the rank is even. -/
def rankCovers (rank : Nat) (x : Fraction) : Bool :=
  let twice := 2 * x.num
  let lower := (unitsOfRank (rank - 1) + unitsOfRank rank) * x.den
  let upper := (unitsOfRank rank + unitsOfRank (rank + 1)) * x.den
  if rank % 2 = 0 then lower ≤ twice && twice ≤ upper
  else lower < twice && twice < upper

/-- The greatest number in `base ≤ · < base + 2 ^ bits` that satisfies `fits`, found bit by bit,
    if `fits` holds of `base` and of every number below one that it holds of. -/
def greatest (fits : Nat → Bool) (base : Nat) : Nat → Nat
  | 0 => base
  | bits + 1 =>
    if fits (base + Nat.pow 2 bits) then greatest fits (base + Nat.pow 2 bits) bits
    else greatest fits base bits

/-- The rank of the greatest magnitude that is at most the fraction, in units. -/
def rankBelow (x : Fraction) : Nat :=
  greatest (fun rank => rank ≤ infiniteRank && unitsOfRank rank * x.den ≤ x.num) 0 63

namespace Magnitude

/-- Whether the fraction, in units, rounds to the finite magnitude. -/
def covers (m : Magnitude) (x : Fraction) : Bool :=
  rankCovers m.rank x

/-- The magnitude that the fraction, in units, rounds to: the one below it or the next one. -/
def nearest (x : Fraction) : Magnitude :=
  let below := rankBelow x
  if rankCovers below x then ofRank below else ofRank (below + 1)

end Magnitude

end Pseudocode

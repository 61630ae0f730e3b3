/-!
# Double precision numbers

The value of a number literal is an IEEE 754 binary64 number. Here such a number is a sign and
a *magnitude*, and a magnitude is its *rank*: its place in the increasing list of the
nonnegative binary64 values, with zero at 0 and infinity at the end. The rank is also what the
63 bits under the sign bit spell in binary.

Every finite magnitude is a whole number of *units* of `2 ^ -1074`, the least positive value
(`Magnitude.units`), so all comparisons are comparisons of natural numbers.
-/

namespace Pseudocode

/-- The rank of infinity: every value of the exponent field but the last, with every fraction
    of 52 bits, is finite. -/
def infiniteRank : Nat := 2047 * Nat.pow 2 52

/-- A nonnegative binary64 value, infinity included. -/
structure Magnitude where
  rank : Nat
  rank_le : rank ≤ infiniteRank
deriving DecidableEq

/-- A binary64 number. There is one NaN: no operation tells two of them apart. -/
inductive Double where
  | nan
  | signed (negative : Bool) (magnitude : Magnitude)
deriving DecidableEq

/-- The units in one: the least positive magnitude is `2 ^ -1074`. -/
def unitsPerOne : Nat := Nat.pow 2 1074

theorem unitsPerOne_pos : 0 < unitsPerOne := by
  unfold unitsPerOne
  apply Nat.two_pow_pos

/-- How many units the value of rank `rank` has. Under `2 ^ 52` ranks and units agree; after
    that the step between neighbours doubles every `2 ^ 52` ranks. At the rank of infinity this is
    the value that the step would lead to, `2 ^ 1024` in units. -/
def unitsOfRank (rank : Nat) : Nat :=
  if rank < Nat.pow 2 52 then rank
  else (Nat.pow 2 52 + rank % Nat.pow 2 52) * Nat.pow 2 (rank / Nat.pow 2 52 - 1)

namespace Magnitude

/-- The magnitude of that rank, or infinity if there is none. -/
def ofRank (rank : Nat) : Magnitude :=
  ⟨min rank infiniteRank, Nat.min_le_right ..⟩

def zero : Magnitude := ofRank 0

def infinite : Magnitude := ofRank infiniteRank

def isInfinite (m : Magnitude) : Bool :=
  m.rank == infiniteRank

/-- The value in units of `2 ^ -1074`. -/
def units (m : Magnitude) : Nat :=
  unitsOfRank m.rank

end Magnitude

namespace Double

/-- Equality of values: a NaN equals nothing, and the two zeros are equal. -/
def agrees : Double → Double → Bool
  | .signed n a, .signed m b => a = b && (n = m || a = .zero)
  | _, _ => false

end Double

end Pseudocode

import Mathlib.Algebra.Order.Field.Basic
import Mathlib.Algebra.Order.Field.Power
import Mathlib.Algebra.Order.Ring.Rat
import Mathlib.Tactic.FieldSimp
import Mathlib.Tactic.Linarith
import Mathlib.Tactic.NormNum
import Mathlib.Tactic.Positivity
import Mathlib.Tactic.Ring
import Pseudocode.Double.Decimal

/-!
# Rounding

A decimal number reads as the magnitude that it rounds to.  What this means is said here on
rational numbers, without the search that computes it (`RoundsTo`): the number lies between
the midpoints to the two neighbours of the magnitude, and on a midpoint only if the rank is
even.

* No number rounds to two magnitudes (`RoundsTo.unique`), because units grow strictly with the
  rank: the upper midpoint of a magnitude is at most the lower midpoint of every later one, and
  two that share a midpoint are neighbours, of which one has an odd rank.
* The search finds the magnitude that a number rounds to (`Magnitude.nearest_eq`), and
  the two bounds beyond which nothing is searched cut no such number off
  (`Decimal.magnitude_eq`).
-/

namespace Pseudocode

/-! ## Units -/

/-- Behind the first block of ranks each block has steps twice as wide as the block before. -/
theorem unitsOfRank_block (k : Nat) {s : Nat} (inside : s < Nat.pow 2 52) :
    unitsOfRank ((k + 1) * Nat.pow 2 52 + s) = (Nat.pow 2 52 + s) * Nat.pow 2 k := by
  unfold unitsOfRank
  have positive : 0 < Nat.pow 2 52 := Nat.two_pow_pos 52
  generalize Nat.pow 2 52 = block at inside positive
  have behind : ¬ (k + 1) * block + s < block := by
    rw [Nat.succ_mul]
    omega
  have quotient : ((k + 1) * block + s) / block = k + 1 := by
    rw [Nat.add_comm, Nat.add_mul_div_right _ _ positive, Nat.div_eq_of_lt inside, Nat.zero_add]
  have remainder : ((k + 1) * block + s) % block = s := by
    rw [Nat.mul_add_mod_self_right, Nat.mod_eq_of_lt inside]
  rw [if_neg behind, quotient, remainder, Nat.add_sub_cancel]

theorem unitsOfRank_lt_succ (rank : Nat) : unitsOfRank rank < unitsOfRank (rank + 1) := by
  have positive : 0 < Nat.pow 2 52 := Nat.two_pow_pos 52
  by_cases first : rank < Nat.pow 2 52
  · have here : unitsOfRank rank = rank := if_pos first
    rw [here]
    by_cases last : rank + 1 < Nat.pow 2 52
    · have next : unitsOfRank (rank + 1) = rank + 1 := if_pos last
      omega
    · have same : rank + 1 = (0 + 1) * Nat.pow 2 52 + 0 := by omega
      rw [same, unitsOfRank_block 0 positive]
      omega
  obtain ⟨k, s, inside, rfl⟩ : ∃ k s, s < Nat.pow 2 52 ∧ rank = (k + 1) * Nat.pow 2 52 + s := by
    refine ⟨rank / Nat.pow 2 52 - 1, rank % Nat.pow 2 52, Nat.mod_lt _ positive, ?_⟩
    have opened : 1 ≤ rank / Nat.pow 2 52 := (Nat.one_le_div_iff positive).mpr (by omega)
    rw [Nat.sub_add_cancel opened, Nat.div_add_mod']
  have width : 0 < Nat.pow 2 k := Nat.two_pow_pos k
  rw [unitsOfRank_block k inside]
  by_cases last : s + 1 < Nat.pow 2 52
  · rw [Nat.add_assoc, unitsOfRank_block k last]
    exact Nat.mul_lt_mul_of_pos_right (by omega) width
  · -- the next rank opens a block
    have same : (k + 1) * Nat.pow 2 52 + s + 1 = (k + 1 + 1) * Nat.pow 2 52 + 0 := by
      rw [Nat.succ_mul (k + 1)]
      omega
    have twice : Nat.pow 2 (k + 1) = 2 * Nat.pow 2 k := Nat.pow_succ'
    rw [same, unitsOfRank_block (k + 1) positive, twice, ← Nat.mul_assoc]
    exact Nat.mul_lt_mul_of_pos_right (by omega) width

theorem unitsOfRank_strictMono : StrictMono unitsOfRank :=
  strictMono_nat_of_lt_succ unitsOfRank_lt_succ

theorem cast_unitsOfRank_le {a b : Nat} (le : a ≤ b) : (unitsOfRank a : ℚ) ≤ unitsOfRank b :=
  Nat.cast_le.mpr (unitsOfRank_strictMono.monotone le)

theorem cast_unitsOfRank_lt {a b : Nat} (lt : a < b) : (unitsOfRank a : ℚ) < unitsOfRank b :=
  Nat.cast_lt.mpr (unitsOfRank_strictMono lt)

/-! ## Rational numbers -/

/-- The rational number that the fraction stands for. -/
def Fraction.toRat (x : Fraction) : ℚ := x.num / x.den

/-- The rational number that the decimal number stands for. -/
def Decimal.toRat (d : Decimal) : ℚ := d.coefficient * 10 ^ d.exponent

theorem Fraction.toRat_scaleTen (x : Fraction) (e : Int) :
    (x.scaleTen e).toRat = x.toRat * 10 ^ e := by
  cases e with
  | ofNat k =>
      show ((x.num * 10 ^ k : Nat) : ℚ) / x.den = x.num / x.den * 10 ^ (k : Int)
      rw [zpow_natCast, Nat.cast_mul, Nat.cast_pow, Nat.cast_ofNat]
      ring
  | negSucc k =>
      show (x.num : ℚ) / (x.den * 10 ^ (k + 1) : Nat) = x.num / x.den * 10 ^ Int.negSucc k
      rw [zpow_negSucc, Nat.cast_mul, Nat.cast_pow, Nat.cast_ofNat]
      field_simp

theorem Decimal.toRat_units (d : Decimal) : d.units.toRat = d.toRat * unitsPerOne := by
  rw [units, Fraction.toRat_scaleTen, toRat, Fraction.toRat, Fraction.ofNat, Nat.cast_mul]
  ring

/-! ## Rounding to a magnitude -/

/-- The number of units rounds to the value of the rank. -/
structure RoundsTo (rank : Nat) (x : ℚ) : Prop where
  below : (unitsOfRank (rank - 1) : ℚ) + unitsOfRank rank ≤ 2 * x
  above : 2 * x ≤ unitsOfRank rank + unitsOfRank (rank + 1)
  /-- A number in the middle between two values rounds to the one of even rank. -/
  even_of_tie : 2 * x = unitsOfRank (rank - 1) + unitsOfRank rank ∨
    2 * x = unitsOfRank rank + unitsOfRank (rank + 1) → rank % 2 = 0

theorem rankCovers_iff {rank : Nat} {x : Fraction} :
    rankCovers rank x = true ↔ RoundsTo rank x.toRat := by
  have positive : (0 : ℚ) < x.den := Nat.cast_pos.mpr x.den_pos
  have twice : 2 * x.toRat = ((2 * x.num : Nat) : ℚ) / x.den := by
    rw [Fraction.toRat, Nat.cast_mul, Nat.cast_ofNat, mul_div_assoc]
  have below_iff (a b : Nat) : (a + b) * x.den ≤ 2 * x.num ↔ (a : ℚ) + b ≤ 2 * x.toRat := by
    rw [twice, le_div_iff₀ positive]
    norm_cast
  have above_iff (a b : Nat) : 2 * x.num ≤ (a + b) * x.den ↔ 2 * x.toRat ≤ (a : ℚ) + b := by
    rw [twice, div_le_iff₀ positive]
    norm_cast
  unfold rankCovers
  by_cases even : rank % 2 = 0
  · simp only [if_pos even, Bool.and_eq_true, decide_eq_true_eq, below_iff, above_iff]
    constructor
    · rintro ⟨below, above⟩
      exact ⟨below, above, fun _ => even⟩
    · intro rounds
      exact ⟨rounds.below, rounds.above⟩
  · simp only [if_neg even, Bool.and_eq_true, decide_eq_true_eq, ← not_le, below_iff, above_iff]
    constructor
    · rintro ⟨below, above⟩
      refine ⟨le_of_not_ge below, le_of_not_ge above, ?_⟩
      rintro (tie | tie)
      · exact absurd tie.le below
      · exact absurd tie.ge above
    · intro rounds
      refine ⟨fun tie => even (rounds.even_of_tie (.inl ?_)),
        fun tie => even (rounds.even_of_tie (.inr ?_))⟩
      · exact le_antisymm tie rounds.below
      · exact le_antisymm rounds.above tie

theorem Magnitude.covers_iff {m : Magnitude} {x : Fraction} :
    m.covers x = true ↔ RoundsTo m.rank x.toRat :=
  rankCovers_iff

namespace RoundsTo

variable {rank rank' : Nat} {x : ℚ}

theorem not_lt (rounds : RoundsTo rank x) (rounds' : RoundsTo rank' x) : ¬ rank < rank' := by
  intro less
  have first := cast_unitsOfRank_le (show rank ≤ rank' - 1 by omega)
  have second := cast_unitsOfRank_le (show rank + 1 ≤ rank' by omega)
  have above := rounds.above
  have below := rounds'.below
  -- the number is in the middle on both sides, so that both ranks are even and no neighbours
  have even : rank % 2 = 0 := rounds.even_of_tie (.inr (by linarith))
  have even' : rank' % 2 = 0 := rounds'.even_of_tie (.inl (by linarith))
  have apart := cast_unitsOfRank_lt (show rank < rank' - 1 by omega)
  linarith

/-- A number rounds to one magnitude at most. -/
theorem unique (rounds : RoundsTo rank x) (rounds' : RoundsTo rank' x) : rank = rank' :=
  Nat.le_antisymm (Nat.le_of_not_lt (rounds'.not_lt rounds))
    (Nat.le_of_not_lt (rounds.not_lt rounds'))

/-- A value rounds to itself. -/
theorem self (rank : Nat) : RoundsTo rank (unitsOfRank rank) := by
  have before := cast_unitsOfRank_le (Nat.sub_le rank 1)
  have behind := cast_unitsOfRank_lt (Nat.lt_succ_self rank)
  refine ⟨by linarith, by linarith, ?_⟩
  rintro (tie | tie)
  · have same : (unitsOfRank (rank - 1) : ℚ) = unitsOfRank rank := by linarith
    have zero := unitsOfRank_strictMono.injective (Nat.cast_injective same)
    omega
  · linarith

/-- What rounds to a positive value is at least half a unit. -/
theorem one_le (rounds : RoundsTo rank x) (positive : 0 < rank) : 1 ≤ 2 * x := by
  have least : (1 : ℚ) ≤ unitsOfRank rank := by
    exact_mod_cast Nat.lt_of_le_of_lt (Nat.zero_le _) (unitsOfRank_strictMono positive)
  have before : (0 : ℚ) ≤ unitsOfRank (rank - 1) := Nat.cast_nonneg _
  have below := rounds.below
  linarith

end RoundsTo

/-! ## The search -/

/-- A search for the last number of a range finds it. -/
theorem greatest_eq {fits : Nat → Bool} {last : Nat} (fits_iff : ∀ n, fits n = true ↔ n ≤ last)
    {base bits : Nat} (from_base : base ≤ last) (in_range : last < base + 2 ^ bits) :
    greatest fits base bits = last := by
  induction bits generalizing base with
  | zero =>
      rw [greatest]
      omega
  | succ bits ih =>
      have double : 2 ^ (bits + 1) = 2 ^ bits + 2 ^ bits := by omega
      have half : Nat.pow 2 bits = 2 ^ bits := rfl
      rw [greatest, half]
      by_cases upper : base + 2 ^ bits ≤ last
      · rw [if_pos ((fits_iff _).mpr upper)]
        exact ih upper (by omega)
      · rw [if_neg (mt (fits_iff _).mp upper)]
        exact ih from_base (by omega)

theorem rankBelow_eq {rank : Nat} {x : Fraction} (in_range : rank ≤ infiniteRank)
    (below : unitsOfRank rank ≤ x.toRat) (above : x.toRat < unitsOfRank (rank + 1)) :
    rankBelow x = rank := by
  have positive : (0 : ℚ) < x.den := Nat.cast_pos.mpr x.den_pos
  have le_iff (n : Nat) : unitsOfRank n * x.den ≤ x.num ↔ (unitsOfRank n : ℚ) ≤ x.toRat := by
    rw [Fraction.toRat, le_div_iff₀ positive]
    norm_cast
  refine greatest_eq (fun n => ?_) (Nat.zero_le rank) ?_
  · simp only [Bool.and_eq_true, decide_eq_true_eq, le_iff]
    constructor
    · rintro ⟨-, fits⟩
      have less : unitsOfRank n < unitsOfRank (rank + 1) :=
        Nat.cast_lt.mp (lt_of_le_of_lt fits above)
      exact Nat.le_of_lt_succ (unitsOfRank_strictMono.lt_iff_lt.mp less)
    · intro le
      exact ⟨le.trans in_range, (cast_unitsOfRank_le le).trans below⟩
  · have bound : infiniteRank < 0 + 2 ^ 63 := by decide
    omega

namespace Magnitude

theorem ofRank_rank (m : Magnitude) : ofRank m.rank = m := by
  cases m with
  | mk rank rank_le =>
      show (⟨min rank infiniteRank, _⟩ : Magnitude) = _
      simp only [Nat.min_eq_left rank_le]

/-- The search finds the finite magnitude that the fraction rounds to. -/
theorem nearest_eq {m : Magnitude} {x : Fraction} (finite : m.rank < infiniteRank)
    (rounds : RoundsTo m.rank x.toRat) : nearest x = m := by
  have below := rounds.below
  have above := rounds.above
  have behind := cast_unitsOfRank_lt (Nat.lt_succ_self m.rank)
  by_cases reached : (unitsOfRank m.rank : ℚ) ≤ x.toRat
  · have rank : rankBelow x = m.rank := rankBelow_eq m.rank_le reached (by linarith)
    simp only [nearest, rank]
    rw [if_pos (rankCovers_iff.mpr rounds), ofRank_rank]
  · -- the value is above the fraction, so the search stops one rank before it
    have positive : m.rank ≠ 0 := by
      intro zero
      rw [zero] at reached below
      exact reached (by linarith)
    obtain ⟨before, next⟩ : ∃ before, m.rank = before + 1 := Nat.exists_eq_succ_of_ne_zero positive
    have less := cast_unitsOfRank_lt (show before < m.rank by omega)
    have rank : rankBelow x = before := by
      refine rankBelow_eq (by omega) ?_ (next ▸ lt_of_not_ge reached)
      rw [next, Nat.add_sub_cancel, ← next] at below
      linarith
    have other : ¬ rankCovers before x = true := by
      intro covers
      have same := (rankCovers_iff.mp covers).unique rounds
      omega
    simp only [nearest, rank]
    rw [if_neg other, ← next, ofRank_rank]

end Magnitude

/-! ## The bounds of the search -/

theorem two_mul_unitsPerOne_le : 2 * unitsPerOne ≤ 10 ^ 330 := by decide +kernel

theorem unitsOfRank_infiniteRank_le : unitsOfRank infiniteRank ≤ 10 ^ 310 * unitsPerOne := by
  decide +kernel

namespace Decimal

theorem toRat_lt_size (d : Decimal) : d.toRat < 10 ^ d.size := by
  have short : d.coefficient < 10 ^ (Text.ofNat d.coefficient).length :=
    (Nat.length_toDigits_le_iff (by decide) Nat.length_toDigits_pos).mp (Nat.le_refl _)
  have cast : (d.coefficient : ℚ) < 10 ^ (Text.ofNat d.coefficient).length := by
    exact_mod_cast short
  rw [toRat, size, zpow_add₀ (by norm_num), zpow_natCast]
  exact mul_lt_mul_of_pos_right cast (by positivity)

theorem size_le_toRat {d : Decimal} (nonzero : d.coefficient ≠ 0) :
    10 ^ (d.size - 1) ≤ d.toRat := by
  obtain ⟨n, length⟩ : ∃ n, (Text.ofNat d.coefficient).length = n + 1 :=
    Nat.exists_eq_succ_of_ne_zero (Nat.ne_of_gt Nat.length_toDigits_pos)
  have long : 10 ^ n ≤ d.coefficient := by
    by_contra less
    cases n with
    | zero => omega
    | succ n =>
        have short :=
          (Nat.length_toDigits_le_iff (by decide) n.succ_pos).mpr (Nat.lt_of_not_le less)
        rw [Text.ofNat] at length
        omega
  have cast : (10 : ℚ) ^ n ≤ d.coefficient := by exact_mod_cast long
  have exponent : d.size - 1 = n + d.exponent := by
    rw [size, length]
    omega
  rw [exponent, toRat, zpow_add₀ (by norm_num), zpow_natCast]
  exact mul_le_mul_of_nonneg_right cast (by positivity)

theorem coefficient_ne_zero {d : Decimal} {rank : Nat} (positive : 0 < rank)
    (rounds : RoundsTo rank d.units.toRat) : d.coefficient ≠ 0 := by
  intro zero
  have least := rounds.one_le positive
  rw [toRat_units, toRat, zero, Nat.cast_zero, zero_mul, zero_mul] at least
  linarith

/-- A decimal number reads as the positive finite magnitude that it rounds to. -/
theorem magnitude_eq {d : Decimal} {m : Magnitude} (positive : 0 < m.rank)
    (finite : m.rank < infiniteRank) (rounds : RoundsTo m.rank d.units.toRat) :
    d.magnitude = m := by
  have least := rounds.one_le positive
  have above := rounds.above
  rw [toRat_units] at least above
  have unit : (0 : ℚ) < unitsPerOne := Nat.cast_pos.mpr unitsPerOne_pos
  have nonzero := coefficient_ne_zero positive rounds
  have not_small : ¬ d.size < -330 := by
    intro small
    have bound : d.toRat < 10 ^ (-330 : Int) :=
      d.toRat_lt_size.trans_le (zpow_le_zpow_right₀ (by norm_num) small.le)
    have scale : 2 * (unitsPerOne : ℚ) ≤ 10 ^ 330 := by exact_mod_cast two_mul_unitsPerOne_le
    have less : d.toRat * (2 * unitsPerOne) < 1 := by
      calc d.toRat * (2 * unitsPerOne)
          < 10 ^ (-330 : Int) * (2 * unitsPerOne) := mul_lt_mul_of_pos_right bound (by linarith)
        _ ≤ 10 ^ (-330 : Int) * 10 ^ 330 := mul_le_mul_of_nonneg_left scale (by positivity)
        _ = 1 := zpow_neg_mul_zpow_self (330 : Int) (by norm_num)
    linarith
  have not_large : ¬ 310 < d.size := by
    intro large
    have bound : (10 : ℚ) ^ 310 ≤ d.toRat := by
      have power : (10 : ℚ) ^ (310 : Int) ≤ 10 ^ (d.size - 1) :=
        zpow_le_zpow_right₀ (by norm_num) (by omega)
      exact power.trans (size_le_toRat nonzero)
    have next : (unitsOfRank (m.rank + 1) : ℚ) ≤ 10 ^ 310 * unitsPerOne := by
      have last := unitsOfRank_strictMono.monotone (Nat.succ_le_of_lt finite)
      exact_mod_cast last.trans unitsOfRank_infiniteRank_le
    have here := cast_unitsOfRank_lt (Nat.lt_succ_self m.rank)
    generalize (10 : ℚ) ^ 310 = limit at bound next
    have scaled := mul_le_mul_of_nonneg_right bound unit.le
    linarith
  rw [magnitude, if_neg (not_or.mpr ⟨nonzero, not_small⟩), if_neg not_large]
  exact Magnitude.nearest_eq finite rounds

end Decimal

end Pseudocode

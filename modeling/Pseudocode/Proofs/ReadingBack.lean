import Pseudocode.Double.Written
import Pseudocode.Proofs.Denotation
import Pseudocode.Proofs.Digits
import Pseudocode.Proofs.Rounding

/-!
# Reading doubles back

A written double reads as the double that it was written for (`Double.parse?_text`), so no two
doubles are written the same way (`Double.text_injective`).  Between the two stand three
changes of form, and rational numbers are what they keep.

* The digits that are chosen for a magnitude round to it (`Magnitude.roundsTo_shortest`).  Each
  candidate on a grid is tested for just that, and the exact value, which is taken if all
  of them fail, rounds to its own magnitude.
* Zeros that are taken off the end, a point that is moved and an exponent that is split
  off change the digits but not the number (`Decimal.toRat_scientific`,
  `Scientific.exists_readFrom_text`).
* The reader gets another decimal number than the writer had, but the same rational number, and
  this rounds to one magnitude only, which the reader finds (`Decimal.magnitude_eq`).
-/

namespace Pseudocode

/-! ## The digits of a magnitude -/

/-- Units are written in decimal with the help of a number that brings a unit to a power of ten. -/
theorem Decimal.toRat_units_of_scale {d : Decimal} {u scale n : Nat}
    (coefficient : d.coefficient = u * scale) (power : scale * unitsPerOne = 10 ^ n)
    (exponent : d.exponent = -n) : d.units.toRat = u := by
  have cast : (scale : ℚ) * unitsPerOne = 10 ^ n := by exact_mod_cast power
  have nonzero : (10 : ℚ) ^ n ≠ 0 := by positivity
  calc d.units.toRat = u * (scale * unitsPerOne) * (10 ^ n)⁻¹ := by
        rw [toRat_units, toRat, coefficient, exponent, zpow_neg, zpow_natCast, Nat.cast_mul]
        ring
    _ = u := by rw [cast, mul_assoc, mul_inv_cancel₀ nonzero, mul_one]

namespace Magnitude

variable (m : Magnitude)

theorem toRat_units_exact : m.exact.units.toRat = unitsOfRank m.rank := by
  have power : Nat.pow 5 1074 * unitsPerOne = 10 ^ 1074 := by decide +kernel
  exact Decimal.toRat_units_of_scale rfl power rfl

theorem roundsTo_of_onGrid? {e : Int} {d : Decimal} (found : m.onGrid? e = some d) :
    RoundsTo m.rank d.units.toRat := by
  have covers := List.find?_some found
  exact covers_iff.mp covers

/-- The digits that a magnitude is written with round to the magnitude. -/
theorem roundsTo_shortest : RoundsTo m.rank m.shortest.units.toRat := by
  simp only [shortest]
  cases found : (List.range 17).findSome? fun n : Nat => m.onGrid? (m.decimalExponent - n) with
  | none =>
      rw [Option.getD_none, toRat_units_exact]
      exact .self m.rank
  | some d =>
      obtain ⟨n, -, on_grid⟩ := List.exists_of_findSome?_eq_some found
      rw [Option.getD_some]
      exact m.roundsTo_of_onGrid? on_grid

end Magnitude

/-! ## Layouts of digits -/

/-- The rational number that the digits with a point behind the first of them stand for. -/
def Scientific.toRat (s : Scientific) : ℚ :=
  Nat.ofDigitChars 10 s.digits 0 * 10 ^ (s.exponent + 1 - s.digits.length)

/-- What is taken off the end of a text are zeros. -/
theorem Text.exists_append_zeros (s : Text) :
    ∃ k, s = (s.reverse.dropWhile (· == '0')).reverse ++ List.replicate k '0' := by
  have zeros : s.reverse.takeWhile (· == '0') =
      List.replicate (s.reverse.takeWhile (· == '0')).length '0' := by
    refine List.eq_replicate_of_mem ?_
    intro c mem
    have zero := List.mem_takeWhile_imp mem
    exact eq_of_beq zero
  refine ⟨(s.reverse.takeWhile (· == '0')).length, ?_⟩
  calc s = (s.reverse.takeWhile (· == '0') ++ s.reverse.dropWhile (· == '0')).reverse := by
        rw [List.takeWhile_append_dropWhile, List.reverse_reverse]
    _ = (s.reverse.dropWhile (· == '0')).reverse ++ List.replicate _ '0' := by
        rw [List.reverse_append, zeros, List.reverse_replicate, List.length_replicate]

theorem Text.ofDigitChars_append_zeros (s : Text) (k : Nat) :
    Nat.ofDigitChars 10 (s ++ List.replicate k '0') 0 = 10 ^ k * Nat.ofDigitChars 10 s 0 := by
  rw [Nat.ofDigitChars_append, Nat.ofDigitChars_replicate_zero]

namespace Decimal

variable {d : Decimal}

/-- Digits lose `k` zeros at their end, and their first digit keeps its place. -/
theorem exists_scientific (nonzero : d.coefficient ≠ 0) :
    ∃ k : Nat, d.coefficient = 10 ^ k * Nat.ofDigitChars 10 d.scientific.digits 0 ∧
      d.scientific.exponent = (d.scientific.digits.length + k : Nat) - 1 + d.exponent ∧
      d.scientific.digits ≠ [] := by
  obtain ⟨k, cut⟩ := Text.exists_append_zeros (Text.ofNat d.coefficient)
  simp only [scientific]
  generalize ((Text.ofNat d.coefficient).reverse.dropWhile (· == '0')).reverse = significant
    at cut ⊢
  have coefficient : d.coefficient = 10 ^ k * Nat.ofDigitChars 10 significant 0 := by
    calc d.coefficient = Nat.ofDigitChars 10 (Text.ofNat d.coefficient) 0 :=
          Nat.ofDigitChars_ten_toDigits.symm
      _ = 10 ^ k * Nat.ofDigitChars 10 significant 0 := by
          rw [cut, Text.ofDigitChars_append_zeros]
  have nonempty : significant ≠ [] := by
    intro empty
    rw [empty, Nat.ofDigitChars_nil, Nat.mul_zero] at coefficient
    exact nonzero coefficient
  rw [if_neg (mt List.isEmpty_iff.mp nonempty)]
  refine ⟨k, coefficient, ?_, nonempty⟩
  rw [cut, List.length_append, List.length_replicate]

/-- Digits without the zeros at their end are another form of the same number. -/
theorem toRat_scientific (nonzero : d.coefficient ≠ 0) : d.scientific.toRat = d.toRat := by
  obtain ⟨k, coefficient, exponent, -⟩ := exists_scientific nonzero
  have power : d.scientific.exponent + 1 - d.scientific.digits.length = k + d.exponent := by omega
  rw [Scientific.toRat, toRat, power, coefficient, zpow_add₀ (by norm_num), zpow_natCast,
    Nat.cast_mul, Nat.cast_pow, Nat.cast_ofNat]
  ring

/-! ### Reading exponents -/

/-- An exponent is read whatever the width that it is brought to. -/
theorem parseExponent?_padded (e : Int) (width : Nat) :
    parseExponent? ((if e < 0 then '-' else '+') :: Text.padded width (Text.ofNat e.natAbs)) =
      some e := by
  have value : Nat.ofDigitChars 10 (Text.padded width (Text.ofNat e.natAbs)) 0 = e.natAbs := by
    rw [Text.padded, Nat.ofDigitChars_append, Nat.ofDigitChars_replicate_zero, Nat.mul_zero]
    exact Nat.ofDigitChars_ten_toDigits
  have nonempty : (Text.padded width (Text.ofNat e.natAbs)).isEmpty = false :=
    List.isEmpty_eq_false_iff.mpr (List.append_ne_nil_of_right_ne_nil _ Nat.toDigits_ne_nil)
  have digits : (Text.padded width (Text.ofNat e.natAbs)).any (! Char.isDigit ·) = false := by
    rw [List.any_eq_false]
    intro c mem
    rcases List.mem_append.mp mem with zero | digit
    · rw [Text.isDigit_of_mem_replicate_zero zero]
      decide
    · rw [Text.isDigit_of_mem_ofNat digit]
      decide
  by_cases negative : e < 0
  · simp only [parseExponent?, if_pos negative, nonempty, digits, value, Bool.or_false,
      Bool.false_eq_true, if_false, if_true, Option.some.injEq]
    omega
  · simp only [parseExponent?, if_neg negative, nonempty, digits, value, Bool.or_false,
      Bool.false_eq_true, if_false, Option.some.injEq]
    omega

/-- Behind digits and perhaps a point with more digits an exponent is read. -/
theorem parse?_exponent {whole fraction : Text} (nonempty : whole ≠ [])
    (digits : ∀ c ∈ whole, c.isDigit) (behindPoint : ∀ c ∈ fraction, c.isDigit) (tail : Text) :
    parse? (whole ++ (if fraction.isEmpty then [] else '.' :: fraction) ++ 'e' :: tail) =
      (parseExponent? tail).map (ofDigits whole fraction) := by
  have letter : RunEnds Char.isDigit ('e' :: tail) := .cons (by decide)
  by_cases empty : fraction = []
  · subst empty
    simp [parse?, letter.takeWhile_append digits, letter.dropWhile_append digits, nonempty]
  · have point : RunEnds Char.isDigit ('.' :: (fraction ++ 'e' :: tail)) := .cons (by decide)
    simp [parse?, point.takeWhile_append digits, point.dropWhile_append digits,
      letter.takeWhile_append behindPoint, letter.dropWhile_append behindPoint, nonempty, empty]

theorem toRat_ofDigits (whole fraction : Text) (e : Int) : (ofDigits whole fraction e).toRat =
    Nat.ofDigitChars 10 (whole ++ fraction) 0 * 10 ^ (e - fraction.length) :=
  rfl

/-- The text has a digit in front and reads as the decimal number. -/
structure ReadFrom (s : Text) (d : Decimal) : Prop where
  digit : ∃ c rest, s = c :: rest ∧ c.isDigit
  read : parse? s = some d

theorem ReadFrom.of_append {whole behind : Text} (nonempty : whole ≠ [])
    (digits : ∀ c ∈ whole, c.isDigit) (read : parse? (whole ++ behind) = some d) :
    ReadFrom (whole ++ behind) d := by
  obtain ⟨c, rest, rfl⟩ := List.exists_cons_of_ne_nil nonempty
  exact ⟨⟨c, rest ++ behind, rfl, digits c List.mem_cons_self⟩, read⟩

end Decimal

/-! ### Reading layouts -/

namespace Scientific

variable {s : Scientific} (nonempty : s.digits ≠ [])
include nonempty

theorem take_digits_ne_nil (n : Nat) : s.digits.take (n + 1) ≠ [] := by
  obtain ⟨c, rest, cons⟩ := List.exists_cons_of_ne_nil nonempty
  rw [cons]
  exact List.cons_ne_nil c (rest.take n)

/-- A point in place stands in the row of the digits, which zeros on either side make long enough
    for it. -/
theorem exists_point : ∃ whole fraction left right,
    s.positional = whole ++ '.' :: fraction ∧ whole ≠ [] ∧
      whole ++ fraction = List.replicate left '0' ++ (s.digits ++ List.replicate right '0') ∧
      fraction.length + s.exponent + 1 = s.digits.length + right := by
  cases exponent : s.exponent with
  | ofNat e =>
      by_cases short : s.digits.length ≤ e + 1
      · refine ⟨s.digits ++ List.replicate (e + 1 - s.digits.length) '0', ['0'], 0,
          e + 1 - s.digits.length + 1, ?_, List.append_ne_nil_of_left_ne_nil nonempty _, ?_, ?_⟩
        · simp only [positional, exponent, List.take_of_length_le short,
            List.drop_eq_nil_of_le short, List.isEmpty_nil, if_true]
        · rw [List.append_assoc, ← List.replicate_succ', List.replicate_zero, List.nil_append]
        · rw [List.length_singleton, Int.ofNat_eq_natCast]
          omega
      · have behind : s.digits.drop (e + 1) ≠ [] := by
          intro empty
          exact short (List.drop_eq_nil_iff.mp empty)
        have no_zeros : e + 1 - s.digits.length = 0 := by omega
        refine ⟨s.digits.take (e + 1), s.digits.drop (e + 1), 0, 0, ?_,
          take_digits_ne_nil nonempty e, ?_, ?_⟩
        · simp only [positional, exponent, no_zeros, List.replicate_zero, List.append_nil]
          rw [if_neg (mt List.isEmpty_iff.mp behind)]
        · rw [List.take_append_drop, List.replicate_zero, List.nil_append, List.append_nil]
        · rw [List.length_drop, Int.ofNat_eq_natCast]
          omega
  | negSucc e =>
      refine ⟨['0'], List.replicate e '0' ++ s.digits, e + 1, 0, ?_, List.cons_ne_nil _ _, ?_, ?_⟩
      · simp only [positional, exponent]
        rfl
      · rw [List.replicate_zero, List.append_nil]
        rfl
      · rw [List.length_append, List.length_replicate]
        omega

variable (digits : ∀ c ∈ s.digits, c.isDigit)
include digits

/-- With a point in place the number reads as itself. -/
theorem exists_readFrom_positional :
    ∃ d, Decimal.ReadFrom s.positional d ∧ d.toRat = s.toRat := by
  obtain ⟨whole, fraction, left, right, layout, first, row, length⟩ := exists_point nonempty
  have row_digits : ∀ c ∈ whole ++ fraction, c.isDigit := by
    intro c mem
    rw [row] at mem
    rcases List.mem_append.mp mem with zero | mem
    · exact Text.isDigit_of_mem_replicate_zero zero
    rcases List.mem_append.mp mem with digit | zero
    · exact digits c digit
    · exact Text.isDigit_of_mem_replicate_zero zero
  obtain ⟨whole_digits, fraction_digits⟩ := List.forall_mem_append.mp row_digits
  have read := Decimal.parse?_fraction first whole_digits fraction_digits
  rw [layout]
  refine ⟨_, .of_append first whole_digits read, ?_⟩
  have value : Nat.ofDigitChars 10 (whole ++ fraction) 0 =
      10 ^ right * Nat.ofDigitChars 10 s.digits 0 := by
    rw [row, Nat.ofDigitChars_append, Nat.ofDigitChars_replicate_zero, Nat.mul_zero,
      Text.ofDigitChars_append_zeros]
  have power : s.exponent + 1 - s.digits.length = right + (0 - fraction.length) := by omega
  rw [Decimal.toRat_ofDigits, value, toRat, power, zpow_add₀ (by norm_num), zpow_natCast,
    Nat.cast_mul, Nat.cast_pow, Nat.cast_ofNat]
  ring

/-- With an exponent the number reads as itself. -/
theorem exists_readFrom_withExponent (width : Nat) :
    ∃ d, Decimal.ReadFrom (s.withExponent width) d ∧ d.toRat = s.toRat := by
  have first := take_digits_ne_nil nonempty 0
  have first_digit : ∀ c ∈ s.digits.take 1, c.isDigit :=
    fun c mem => digits c (List.mem_of_mem_take mem)
  have other_digits : ∀ c ∈ s.digits.drop 1, c.isDigit :=
    fun c mem => digits c (List.mem_of_mem_drop mem)
  have read := Decimal.parse?_exponent first first_digit other_digits
    ((if s.exponent < 0 then '-' else '+') :: Text.padded width (Text.ofNat s.exponent.natAbs))
  rw [Decimal.parseExponent?_padded, List.append_assoc] at read
  rw [withExponent, List.append_assoc]
  refine ⟨_, .of_append first first_digit read, ?_⟩
  have power : s.exponent - (s.digits.drop 1).length = s.exponent + 1 - s.digits.length := by
    have positive := List.length_pos_iff.mpr nonempty
    rw [List.length_drop]
    omega
  rw [Decimal.toRat_ofDigits, List.take_append_drop, power, toRat]

/-- In either layout the number reads as itself. -/
theorem exists_readFrom_text (style : NumberStyle) :
    ∃ d, Decimal.ReadFrom (s.text style) d ∧ d.toRat = s.toRat := by
  unfold text
  split
  · exact exists_readFrom_positional nonempty digits
  · exact exists_readFrom_withExponent nonempty digits style.exponentWidth

end Scientific

/-! ## Doubles -/

namespace Magnitude

variable {m : Magnitude}

/-- A finite magnitude is written with a digit in front, and reads as itself. -/
theorem exists_readFrom_text (finite : m.rank < infiniteRank) :
    ∃ d, Decimal.ReadFrom m.text d ∧ d.magnitude = m := by
  have not_infinite : ¬ m.isInfinite = true := by
    intro infinite
    exact absurd (eq_of_beq infinite) (Nat.ne_of_lt finite)
  rw [text, if_neg not_infinite]
  by_cases zero : m.rank = 0
  · rw [if_pos zero]
    have digit : ∀ c ∈ ['0'], c.isDigit := fun c => @Text.isDigit_of_mem_replicate_zero 1 c
    obtain ⟨d, read, value⟩ :=
      @Scientific.exists_readFrom_text ⟨['0'], 0⟩ (List.cons_ne_nil _ _) digit Double.style
    have none : d.toRat = 0 := by
      rw [value, Scientific.toRat]
      exact zero_mul _
    rw [Decimal.toRat, mul_eq_zero] at none
    have coefficient : d.coefficient = 0 := Nat.cast_eq_zero.mp (none.resolve_right (by positivity))
    have same := m.ofRank_rank
    rw [zero] at same
    refine ⟨d, read, ?_⟩
    rw [Decimal.magnitude, if_pos (.inl coefficient)]
    exact same
  · rw [if_neg zero]
    have positive := Nat.pos_of_ne_zero zero
    have rounds := m.roundsTo_shortest
    have nonzero := Decimal.coefficient_ne_zero positive rounds
    obtain ⟨-, -, -, nonempty⟩ := Decimal.exists_scientific nonzero
    obtain ⟨d, read, value⟩ := Scientific.exists_readFrom_text nonempty
      (fun _ => Decimal.isDigit_of_mem_scientific) Double.style
    refine ⟨d, read, Decimal.magnitude_eq positive finite ?_⟩
    rw [Decimal.toRat_units, value, Decimal.toRat_scientific nonzero, ← Decimal.toRat_units]
    exact rounds

end Magnitude

namespace Double

/-- **A written double reads as itself.** -/
theorem parse?_text (x : Double) : parse? x.text = some x := by
  cases x with
  | nan => rfl
  | signed negative m =>
      by_cases finite : m.rank < infiniteRank
      · obtain ⟨d, ⟨⟨c, rest, front, digit⟩, read⟩, same⟩ := Magnitude.exists_readFrom_text finite
        have unsigned : (Decimal.parse? (c :: rest)).map (ofDecimal negative) =
            some (.signed negative m) := by
          rw [← front, read, ← same]
          rfl
        rw [text, front]
        cases negative with
        | false => exact (parse?_of_digit rest digit).trans unsigned
        | true => exact (parseUnsigned?_of_digit true rest digit).trans unsigned
      · have rank : m.rank = infiniteRank := Nat.le_antisymm m.rank_le (Nat.le_of_not_lt finite)
        have same := m.ofRank_rank
        rw [rank] at same
        have word : m.text = "inf".toList := if_pos (beq_iff_eq.mpr rank)
        rw [text, word, ← same]
        cases negative <;> rfl

/-- No two doubles are written the same way. -/
theorem text_injective : Function.Injective text := by
  intro x y same
  have read := congrArg parse? same
  rwa [parse?_text, parse?_text, Option.some.injEq] at read

end Double

end Pseudocode

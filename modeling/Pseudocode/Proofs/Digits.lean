import Pseudocode.Double.Written

/-!
# Digits

Which characters written numbers are made of.  They are few, so a number never holds what
would end the line, the field or the quote that it stands in.  No two integers are made of the
same ones (`ofInt_injective`).
-/

namespace Pseudocode

namespace Text

/-- Every character of a number in base `b` is one of the first `b` digits. -/
theorem exists_digitChar_of_mem_toDigits {b n : Nat} {c : Char} (base : 1 < b)
    (h : c ∈ Nat.toDigits b n) : ∃ d < b, c = Nat.digitChar d := by
  induction n using Nat.strongRecOn with
  | ind n ih =>
      rw [Nat.toDigits_eq_if base] at h
      by_cases small : n < b
      · rw [if_pos small] at h
        exact ⟨n, small, List.mem_singleton.mp h⟩
      · rw [if_neg small] at h
        rcases List.mem_append.mp h with front | last
        · exact ih (n / b) (Nat.div_lt_self (by omega) base) front
        · exact ⟨n % b, Nat.mod_lt n (by omega), List.mem_singleton.mp last⟩

theorem isDigit_of_mem_ofNat {n : Nat} {c : Char} (h : c ∈ ofNat n) : c.isDigit :=
  Nat.isDigit_of_mem_toDigits (by decide) (by decide) h

theorem isDigit_of_mem_replicate_zero {n : Nat} {c : Char} (mem : c ∈ List.replicate n '0') :
    c.isDigit := by
  obtain rfl := List.eq_of_mem_replicate mem
  rfl

theorem isDigit_of_mem_ofInt {n : Int} {c : Char} (h : c ∈ ofInt n) : c = '-' ∨ c.isDigit := by
  cases n with
  | ofNat n => exact Or.inr (isDigit_of_mem_ofNat h)
  | negSucc n =>
      rcases List.mem_cons.mp h with sign | digit
      · exact Or.inl sign
      · exact Or.inr (isDigit_of_mem_ofNat digit)

theorem lineEnd_not_mem_ofInt (n : Int) : lineEnd ∉ ofInt n := by
  intro h
  rcases isDigit_of_mem_ofInt h with sign | digit
  · exact absurd sign (by decide)
  · exact absurd digit (by decide)

theorem ofNat_injective {m n : Nat} (same : ofNat m = ofNat n) : m = n := by
  have number := congrArg (Nat.ofDigitChars 10 · 0) same
  simpa only [ofNat, Nat.ofDigitChars_ten_toDigits] using number

theorem minus_not_mem_ofNat (n : Nat) : '-' ∉ ofNat n := by
  intro mem
  exact absurd (isDigit_of_mem_ofNat mem) (by decide)

/-- The sign tells negative numbers from the others, and the digits tell the rest. -/
theorem ofInt_injective {m n : Int} (same : ofInt m = ofInt n) : m = n := by
  cases m with
  | ofNat m =>
      cases n with
      | ofNat n => rw [ofNat_injective same]
      | negSucc n =>
          have sign : '-' ∈ ofInt (.negSucc n) := List.mem_cons_self
          rw [← same] at sign
          exact absurd sign (minus_not_mem_ofNat m)
  | negSucc m =>
      cases n with
      | ofNat n =>
          have sign : '-' ∈ ofInt (.negSucc m) := List.mem_cons_self
          rw [same] at sign
          exact absurd sign (minus_not_mem_ofNat n)
      | negSucc n =>
          have digits := ofNat_injective (List.cons.inj same).2
          rw [Nat.succ_inj.mp digits]

theorem lineEnd_not_mem_hexCapital (width n : Nat) : lineEnd ∉ hexCapital width n := by
  intro h
  rcases List.mem_append.mp h with zeros | digits
  · exact absurd (List.eq_of_mem_replicate zeros) (by decide)
  · obtain ⟨c, mem, capital⟩ := List.mem_map.mp digits
    obtain ⟨d, small, rfl⟩ := exists_digitChar_of_mem_toDigits (by decide) mem
    have none : ∀ d < 16, (Nat.digitChar d).toUpper ≠ lineEnd := by decide
    exact none d small capital

end Text

/-! ## Written doubles -/

/-- Stands in written doubles: digits, signs, the point, and the letters of `e`, `inf` and
    `nan`. -/
def isNumeric (c : Char) : Bool :=
  c.isDigit || "+-.aefin".toList.contains c

theorem isNumeric_of_isDigit {c : Char} (digit : c.isDigit) : isNumeric c := by
  rw [isNumeric, digit, Bool.true_or]

theorem isNumeric_of_mem_replicate_zero {n : Nat} {c : Char} (mem : c ∈ List.replicate n '0') :
    isNumeric c :=
  isNumeric_of_isDigit (Text.isDigit_of_mem_replicate_zero mem)

namespace Scientific

variable {s : Scientific} {c : Char}

theorem isNumeric_of_mem_positional (digits : ∀ d ∈ s.digits, d.isDigit)
    (mem : c ∈ s.positional) : isNumeric c := by
  have digit : c ∈ s.digits → isNumeric c := fun inside => isNumeric_of_isDigit (digits c inside)
  unfold positional at mem
  split at mem
  · rcases List.mem_append.mp mem with front | behind
    · rcases List.mem_append.mp front with whole | zeros
      · exact digit (List.mem_of_mem_take whole)
      · exact isNumeric_of_mem_replicate_zero zeros
    · rcases List.mem_cons.mp behind with rfl | fraction
      · rfl
      · split at fraction
        · obtain rfl := List.mem_singleton.mp fraction
          rfl
        · exact digit (List.mem_of_mem_drop fraction)
  · rcases List.mem_append.mp mem with front | behind
    · rcases List.mem_cons.mp front with rfl | front
      · rfl
      rcases List.mem_cons.mp front with rfl | zeros
      · rfl
      · exact isNumeric_of_mem_replicate_zero zeros
    · exact digit behind

theorem isNumeric_of_mem_withExponent (digits : ∀ d ∈ s.digits, d.isDigit) {width : Nat}
    (mem : c ∈ s.withExponent width) : isNumeric c := by
  have digit : c ∈ s.digits → isNumeric c := fun inside => isNumeric_of_isDigit (digits c inside)
  rcases List.mem_append.mp mem with front | behind
  · rcases List.mem_append.mp front with first | fraction
    · exact digit (List.mem_of_mem_take first)
    · split at fraction
      · exact absurd fraction List.not_mem_nil
      · rcases List.mem_cons.mp fraction with rfl | fraction
        · rfl
        · exact digit (List.mem_of_mem_drop fraction)
  · rcases List.mem_cons.mp behind with rfl | behind
    · rfl
    rcases List.mem_cons.mp behind with rfl | exponent
    · split <;> rfl
    rcases List.mem_append.mp exponent with zeros | exponent
    · exact isNumeric_of_mem_replicate_zero zeros
    · exact isNumeric_of_isDigit (Text.isDigit_of_mem_ofNat exponent)

theorem isNumeric_of_mem_text (digits : ∀ d ∈ s.digits, d.isDigit) {style : NumberStyle}
    (mem : c ∈ s.text style) : isNumeric c := by
  unfold text at mem
  split at mem
  · exact isNumeric_of_mem_positional digits mem
  · exact isNumeric_of_mem_withExponent digits mem

end Scientific

theorem Decimal.isDigit_of_mem_scientific {d : Decimal} {c : Char}
    (mem : c ∈ d.scientific.digits) : c.isDigit := by
  unfold scientific at mem
  simp only at mem
  split at mem
  · obtain rfl := List.mem_singleton.mp mem
    rfl
  · have inside := (List.dropWhile_sublist _).subset (List.mem_reverse.mp mem)
    exact Text.isDigit_of_mem_ofNat (List.mem_reverse.mp inside)

theorem Magnitude.isNumeric_of_mem_text {m : Magnitude} {c : Char} (mem : c ∈ m.text) :
    isNumeric c := by
  unfold text at mem
  split at mem
  · exact List.all_eq_true.mp (by decide : "inf".toList.all isNumeric = true) c mem
  split at mem
  · refine Scientific.isNumeric_of_mem_text (fun d zero => ?_) mem
    obtain rfl := List.mem_singleton.mp zero
    rfl
  · exact Scientific.isNumeric_of_mem_text (fun _ => Decimal.isDigit_of_mem_scientific) mem

/-- A written double is made of few characters. -/
theorem Double.isNumeric_of_mem_text {x : Double} {c : Char} (mem : c ∈ x.text) :
    isNumeric c := by
  cases x with
  | nan => exact List.all_eq_true.mp (by decide : "nan".toList.all isNumeric = true) c mem
  | signed negative m =>
      rcases List.mem_append.mp mem with sign | magnitude
      · cases negative with
        | false => exact absurd sign List.not_mem_nil
        | true =>
            obtain rfl := List.mem_singleton.mp sign
            rfl
      · exact Magnitude.isNumeric_of_mem_text magnitude

end Pseudocode

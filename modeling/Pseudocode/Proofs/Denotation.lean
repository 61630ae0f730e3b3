import Pseudocode.Proofs.Cutting

/-!
# Denotation

What a lexeme means, said without the functions that compute it (`Lexeme.Denotes`): the
spelling of a keyword is that keyword and every other word is an identifier, a string
denotes its body, and a number denotes what its text reads as.  A well-formed lexeme has
the kind and the literal that it denotes (`Lexeme.denotes`).

The case of numbers is the one with content.  A number lexeme knows its digits and a
reader knows only characters, so the reader has to find the same digits again, and it must
not take the text for a sign, an exponent or the word for infinity.
-/

namespace Pseudocode

/-! ## Reading digits -/

namespace Decimal

variable {whole fraction : Text}

theorem parse?_whole (nonempty : whole ≠ []) (digits : ∀ c ∈ whole, c.isDigit) :
    parse? whole = some (ofDigits whole [] 0) := by
  have front := RunEnds.nil.takeWhile_append digits
  have behind := RunEnds.nil.dropWhile_append digits
  rw [List.append_nil] at front behind
  simp [parse?, front, behind, nonempty]

theorem parse?_fraction (nonempty : whole ≠ []) (digits : ∀ c ∈ whole, c.isDigit)
    (behindPoint : ∀ c ∈ fraction, c.isDigit) :
    parse? (whole ++ '.' :: fraction) = some (ofDigits whole fraction 0) := by
  have point : RunEnds Char.isDigit ('.' :: fraction) := .cons (by decide)
  have tail := RunEnds.nil.takeWhile_append behindPoint
  have rest := RunEnds.nil.dropWhile_append behindPoint
  rw [List.append_nil] at tail rest
  simp [parse?, point.takeWhile_append digits, point.dropWhile_append digits, tail, rest, nonempty]

end Decimal

namespace Double

/-- A digit in front rules out the words for infinity and NaN. -/
theorem parseUnsigned?_of_digit {c : Char} (negative : Bool) (s : Text) (digit : c.isDigit) :
    parseUnsigned? negative (c :: s) = (Decimal.parse? (c :: s)).map (ofDecimal negative) := by
  have notUpper : ¬ c.isUpper := by
    intro upper
    have alpha : c.isAlpha := Bool.or_eq_true_iff.mpr (.inl upper)
    have start : isWordStart c := by simp [isWordStart, alpha]
    rw [(classes_of_isWordStart start).2.2] at digit
    exact Bool.noConfusion digit
  have lower : c.toLower = c := dif_neg fun range => notUpper (decide_eq_true range)
  have noWord : ∀ (d : Char) (w : Text), d.isDigit = false →
      (c :: s).map Char.toLower ≠ d :: w := by
    intro d w letter same
    have front : c.toLower = d := (List.cons.inj same).1
    rw [← front, lower, digit] at letter
    exact Bool.noConfusion letter
  have inf : (c :: s).map Char.toLower ≠ "inf".toList := noWord 'i' _ (by decide)
  have infinity : (c :: s).map Char.toLower ≠ "infinity".toList := noWord 'i' _ (by decide)
  have nan : (c :: s).map Char.toLower ≠ "nan".toList := noWord 'n' _ (by decide)
  unfold parseUnsigned?
  rw [if_neg (not_or.mpr ⟨inf, infinity⟩), if_neg nan]

/-- A digit in front rules out a sign. -/
theorem parse?_of_digit {c : Char} (s : Text) (digit : c.isDigit) :
    parse? (c :: s) = (Decimal.parse? (c :: s)).map (ofDecimal false) := by
  have unsigned := parseUnsigned?_of_digit false s digit
  unfold parse?
  split
  · rename_i minus
    obtain rfl := (List.cons.inj minus).1
    exact absurd digit (by decide)
  · rename_i plus
    obtain rfl := (List.cons.inj plus).1
    exact absurd digit (by decide)
  · exact unsigned

end Double

/-- The text of a number reads as the double that its digits round to. -/
theorem Lexeme.parse?_text_number {whole : Text} {fraction : Option Text}
    (wf : (number whole fraction).WellFormed) :
    Double.parse? (number whole fraction).text =
      some (.ofDecimal false (.ofDigits whole (fraction.getD []) 0)) := by
  obtain ⟨⟨nonempty, digits⟩, behindPoint⟩ := wf
  obtain ⟨c, rest, rfl⟩ := List.exists_cons_of_ne_nil nonempty
  have digit : c.isDigit := digits c List.mem_cons_self
  cases fraction with
  | none =>
      show Double.parse? (c :: rest) = _
      rw [Double.parse?_of_digit rest digit, Decimal.parse?_whole nonempty digits]
      rfl
  | some fraction =>
      have read := Decimal.parse?_fraction nonempty digits (behindPoint fraction rfl).2
      show Double.parse? (c :: (rest ++ '.' :: fraction)) = _
      rw [Double.parse?_of_digit _ digit]
      exact congrArg (Option.map (Double.ofDecimal false)) read

/-! ## What lexemes denote -/

/-- The lexeme has this kind and this literal. -/
inductive Lexeme.Denotes : Lexeme → Kind → Option Literal → Prop where
  | operator (o : Operator) : Denotes (.operator o) (.operator o) none
  | keyword (k : Keyword) : Denotes (.word k.spelling) (.keyword k) none
  | identifier {letters : Text} (reserved : ∀ k : Keyword, letters ≠ k.spelling) :
      Denotes (.word letters) .identifier none
  | number {whole : Text} {fraction : Option Text} {x : Double}
      (reads : Double.parse? (Lexeme.number whole fraction).text = some x) :
      Denotes (.number whole fraction) .number (some (.number x))
  | string (body : Text) : Denotes (.string body) .string (some (.text body))

/-- **A well-formed lexeme has the kind and the literal that it denotes.** -/
theorem Lexeme.denotes {l : Lexeme} (wf : l.WellFormed) : l.Denotes l.kind l.literal := by
  cases l with
  | operator o => exact .operator o
  | word letters =>
      show Denotes _ (Kind.ofWord letters) none
      unfold Kind.ofWord
      cases known : Keyword.ofText? letters with
      | none =>
          refine .identifier fun k same => ?_
          rw [Keyword.ofText?_eq_some_iff.mpr same] at known
          exact nomatch known
      | some k =>
          obtain rfl := Keyword.spelling_of_ofText? known
          exact .keyword k
  | number whole fraction => exact .number (parse?_text_number wf)
  | string body => exact .string body

end Pseudocode

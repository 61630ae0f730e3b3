import Mathlib.Algebra.Ring.Nat
import Pseudocode.Proofs.Cutting
import Pseudocode.Proofs.Digits
import Pseudocode.Text.Quoted

/-!
# Quotation

A quoted text shows where it ends: whatever it holds and whatever follows it, there is one way to
read it (`selfDelimiting_quoted`).  The quote is not the same for all texts and escapes have
several lengths, so the route is to read from the left:

* the first character is the quote, and from there on it is known;
* behind it one character is read at a time (`unescaped?`).  A backslash announces an escape, and
  the letter next to it says how many digits belong to it, so that the reader takes exactly
  what was written for the character (`unescaped?_escaped`);
* nothing that is written for a character starts with the quote (`escaped_append_ne`), so the first
  quote that the reader meets is the closing one.

Forms that have this property can be set side by side without anything between them, which is
what `SelfDelimiting` is for.
-/

namespace Pseudocode.Text

/-! ## Forms that show where they end -/

/-- The form of a value shows where it ends: a text can start with the forms of no two values, and
    what follows the form is known with it. -/
def SelfDelimiting {α : Type} (write : α → Text) : Prop :=
  ∀ ⦃a b : α⦄ ⦃s t : Text⦄, write a ++ s = write b ++ t → a = b ∧ s = t

/-- A form shows where it ends if a character closes it that stands nowhere inside. -/
theorem SelfDelimiting.of_closed {α : Type} {write : α → Text} {closing : Char}
    (injective : Function.Injective write) (absent : ∀ a, closing ∉ write a) :
    SelfDelimiting fun a => write a ++ [closing] := by
  intro a b s t same
  rw [List.append_assoc, List.append_assoc] at same
  have ends (u : Text) : RunEnds (· != closing) ([closing] ++ u) :=
    .cons (bne_self_eq_false' closing)
  have fronts := congrArg (List.takeWhile (· != closing)) same
  rw [(ends s).takeWhile_append fun _ => bne_of_mem (absent a),
    (ends t).takeWhile_append fun _ => bne_of_mem (absent b)] at fronts
  obtain rfl := injective fronts
  exact ⟨rfl, (List.cons.inj (List.append_cancel_left same)).2⟩

/-! ## Hexadecimal digits -/

/-- The value of a hexadecimal digit, a letter being small. -/
def hexDigitValue (c : Char) : Nat :=
  if c.isDigit then c.toNat - '0'.toNat else 10 + (c.toNat - 'a'.toNat)

/-- The number that the hexadecimal digits write. -/
def ofHex (digits : Text) : Nat :=
  digits.foldl (fun n c => 16 * n + hexDigitValue c) 0

theorem hexDigitValue_digitChar : ∀ d < 16, hexDigitValue (Nat.digitChar d) = d := by decide

theorem ofHex_concat (digits : Text) (c : Char) :
    ofHex (digits ++ [c]) = 16 * ofHex digits + hexDigitValue c :=
  List.foldl_append

theorem ofHex_toDigits (n : Nat) : ofHex (Nat.toDigits 16 n) = n := by
  induction n using Nat.strongRecOn with
  | ind n ih =>
      rw [Nat.toDigits_eq_if (by decide)]
      by_cases small : n < 16
      · rw [if_pos small]
        show 16 * 0 + hexDigitValue (Nat.digitChar n) = n
        rw [hexDigitValue_digitChar n small, Nat.zero_add]
      · have shorter : n / 16 < n := by omega
        have last : n % 16 < 16 := Nat.mod_lt n (by decide)
        rw [if_neg small, ofHex_concat, ih (n / 16) shorter, hexDigitValue_digitChar _ last]
        exact Nat.div_add_mod n 16

theorem ofHex_zeros_append (k : Nat) (digits : Text) :
    ofHex (List.replicate k '0' ++ digits) = ofHex digits := by
  induction k with
  | zero => rfl
  | succ k ih => exact ih

/-- A number in hexadecimal is read whatever the width that it is brought to. -/
theorem ofHex_hex (width n : Nat) : ofHex (hex width n) = n :=
  (ofHex_zeros_append _ _).trans (ofHex_toDigits n)

theorem length_hex {width n : Nat} (positive : 0 < width) (fits : n < 16 ^ width) :
    (hex width n).length = width := by
  have short : (Nat.toDigits 16 n).length ≤ width :=
    (Nat.length_toDigits_le_iff (by decide) positive).mpr fits
  rw [hex, padded, List.length_append, List.length_replicate]
  exact Nat.sub_add_cancel short

/-! ## Reading escapes -/

/-- The character whose code point the first `width` characters write, and the text behind
    them. -/
def charOfHex (width : Nat) (s : Text) : Char × Text :=
  (Char.ofNat (ofHex (s.take width)), s.drop width)

/-- The character that is announced by a backslash, and the text behind its escape. -/
def afterBackslash? : Text → Option (Char × Text)
  | [] => none
  | c :: s =>
    some <|
      if c = 'n' then ('\n', s)
      else if c = 'r' then ('\r', s)
      else if c = 't' then ('\t', s)
      else if c = 'x' then charOfHex 2 s
      else if c = 'u' then charOfHex 4 s
      else if c = 'U' then charOfHex 8 s
      else (c, s)

/-- The character that a text between quotes starts with, and the text behind it. -/
def unescaped? : Text → Option (Char × Text)
  | [] => none
  | c :: s => if c = '\\' then afterBackslash? s else some (c, s)

theorem charOfHex_append {width : Nat} {c : Char} (positive : 0 < width)
    (fits : c.toNat < 16 ^ width) (s : Text) :
    charOfHex width (hex width c.toNat ++ s) = (c, s) := by
  have length := length_hex positive fits
  rw [charOfHex, List.take_left' length, List.drop_left' length, ofHex_hex, Char.ofNat_toNat]

theorem unescaped?_codeEscape (c : Char) (s : Text) :
    unescaped? (codeEscape c ++ s) = some (c, s) := by
  have valid : c.toNat < 16 ^ 8 := Nat.lt_of_lt_of_le c.val.toNat_lt (by decide)
  unfold codeEscape
  split
  · rename_i fits
    exact congrArg some (charOfHex_append (by decide) fits s)
  · split
    · rename_i fits
      exact congrArg some (charOfHex_append (by decide) fits s)
    · exact congrArg some (charOfHex_append (by decide) valid s)

/-- What stands for a character is read as the character. -/
theorem unescaped?_escaped {mark : Char} (quote : mark = '\'' ∨ mark = '"') (c : Char) (s : Text) :
    unescaped? (escaped mark c ++ s) = some (c, s) := by
  unfold escaped
  split
  · rename_i special
    rcases special with rfl | rfl
    · rcases quote with rfl | rfl <;> rfl
    · rfl
  rename_i plain
  have no_backslash : c ≠ '\\' := fun same => plain (.inr same)
  split
  · rename_i same
    rw [same]
    rfl
  split
  · rename_i same
    rw [same]
    rfl
  split
  · rename_i same
    rw [same]
    rfl
  split
  · exact if_neg no_backslash
  · exact unescaped?_codeEscape c s

/-- No character is written with the quote in front. -/
theorem escaped_append_ne {mark : Char} (quote : mark = '\'' ∨ mark = '"') (c : Char)
    (s t : Text) : escaped mark c ++ s ≠ mark :: t := by
  intro same
  have no_backslash : mark ≠ '\\' := by rcases quote with rfl | rfl <;> decide
  have read := unescaped?_escaped quote c s
  rw [same, unescaped?, if_neg no_backslash, Option.some.injEq, Prod.mk.injEq] at read
  obtain ⟨rfl, -⟩ := read
  rw [escaped, if_pos (.inl rfl)] at same
  exact no_backslash (List.cons.inj same).1.symm

/-! ## Quoted texts -/

theorem quoteMark_eq (s : Text) : quoteMark s = '\'' ∨ quoteMark s = '"' := by
  unfold quoteMark
  split
  · exact .inr rfl
  · exact .inl rfl

/-- The body of a quoted text goes up to the first quote that stands for no character. -/
theorem eq_of_flatMap_escaped {mark : Char} (quote : mark = '\'' ∨ mark = '"') {s t u v : Text}
    (same : s.flatMap (escaped mark) ++ mark :: u = t.flatMap (escaped mark) ++ mark :: v) :
    s = t ∧ u = v := by
  induction s generalizing t with
  | nil =>
      cases t with
      | nil => exact ⟨rfl, (List.cons.inj same).2⟩
      | cons d t =>
          rw [List.flatMap_cons, List.append_assoc] at same
          exact absurd same.symm (escaped_append_ne quote d _ _)
  | cons c s ih =>
      cases t with
      | nil =>
          rw [List.flatMap_cons, List.append_assoc] at same
          exact absurd same (escaped_append_ne quote c _ _)
      | cons d t =>
          rw [List.flatMap_cons, List.flatMap_cons, List.append_assoc, List.append_assoc] at same
          have read := congrArg unescaped? same
          rw [unescaped?_escaped quote, unescaped?_escaped quote, Option.some.injEq,
            Prod.mk.injEq] at read
          obtain ⟨rfl, later⟩ := read
          obtain ⟨rfl, rest⟩ := ih later
          exact ⟨rfl, rest⟩

/-- **A quoted text shows where it ends.** -/
theorem selfDelimiting_quoted : SelfDelimiting quoted := by
  intro s t u v same
  simp only [quoted, List.cons_append, List.append_assoc, List.cons.injEq] at same
  obtain ⟨marks, bodies⟩ := same
  rw [← marks] at bodies
  exact eq_of_flatMap_escaped (quoteMark_eq s) bodies

end Pseudocode.Text

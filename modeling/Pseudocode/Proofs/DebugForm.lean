import Pseudocode.Proofs.Printed
import Pseudocode.Proofs.Quotation
import Pseudocode.Proofs.ReadingBack
import Pseudocode.Token

/-!
# Debug forms

The debug form of a token holds all that the token is: no two tokens look the same
(`debugForm_eq_iff`).  That goes for tokens with any parts, not only for those of a scan, so neither
the lexeme nor a literal text can be counted on to be harmless, and either may hold the
very characters that end a form.

A debug form is read from left to right, part by part, and each part shows where it ends:

* the name of a kind and a number have no comma inside, and a line has no bracket;
* a quoted text ends at its closing quote, wherever that stands (`Text.selfDelimiting_quoted`);
* whether there is a literal shows in the character behind the lexeme: the line has an `L` in front,
  and no literal starts with it.
-/

namespace Pseudocode

/-! ## The parts -/

/-- A line number shows where it ends if a bracket closes it. -/
theorem Text.selfDelimiting_ofInt : SelfDelimiting fun n : Int => ofInt n ++ [')'] := by
  refine .of_closed (fun _ _ => ofInt_injective) fun n mem => ?_
  rcases isDigit_of_mem_ofInt mem with sign | digit
  · exact absurd sign (by decide)
  · exact absurd digit (by decide)

/-- The name of a kind shows where it ends if a comma closes it. -/
theorem Kind.selfDelimiting_name : Text.SelfDelimiting fun k : Kind => k.name ++ [','] := by
  refine .of_closed (fun _ _ => Kind.name_injective) fun k mem => ?_
  exact absurd (Kind.isWordStart_of_mem_name mem) (by decide)

/-- A written double shows where it ends if a comma closes it. -/
theorem Double.selfDelimiting_text : Text.SelfDelimiting fun x : Double => x.text ++ [','] := by
  refine .of_closed Double.text_injective fun x mem => ?_
  exact absurd (Double.isNumeric_of_mem_text mem) (by decide)

theorem Double.exists_text_eq_cons (x : Double) : ∃ c rest, x.text = c :: rest ∧ isNumeric c := by
  have nonempty : x.text ≠ [] := by
    intro empty
    have read := x.parse?_text
    rw [empty] at read
    exact absurd read.symm (Option.some_ne_none x)
  obtain ⟨c, rest, front⟩ := List.exists_cons_of_ne_nil nonempty
  have mem : c ∈ x.text := front ▸ List.mem_cons_self
  exact ⟨c, rest, front, Double.isNumeric_of_mem_text mem⟩

/-! ## Literals -/

theorem Text.isNumeric_quoteMark (s : Text) : isNumeric s.quoteMark = false := by
  rcases s.quoteMark_eq with mark | mark
  · rw [mark]
    decide
  · rw [mark]
    decide

namespace Literal

/-- Literal texts have a quote in front, and numbers have another character. -/
theorem text_debugForm_append_ne (body s t : Text) (x : Double) :
    (text body).debugForm ++ s ≠ (number x).debugForm ++ t := by
  intro same
  obtain ⟨c, rest, front, numeric⟩ := x.exists_text_eq_cons
  have quote : body.quoteMark = c := by
    simp only [debugForm, Text.quoted, front, List.cons_append] at same
    exact (List.cons.inj same).1
  rw [← quote, body.isNumeric_quoteMark] at numeric
  exact Bool.noConfusion numeric

/-- A literal shows where it ends if a comma closes it. -/
theorem selfDelimiting_debugForm : Text.SelfDelimiting fun l : Literal => l.debugForm ++ [','] := by
  intro a b s t same
  rw [List.append_assoc, List.append_assoc] at same
  cases a with
  | text body =>
      cases b with
      | text body' =>
          obtain ⟨rfl, rest⟩ := Text.selfDelimiting_quoted same
          exact ⟨rfl, List.append_cancel_left rest⟩
      | number x => exact absurd same (text_debugForm_append_ne body _ _ x)
  | number x =>
      cases b with
      | text body => exact absurd same.symm (text_debugForm_append_ne body _ _ x)
      | number y =>
          rw [← List.append_assoc, ← List.append_assoc] at same
          obtain ⟨rfl, rest⟩ := Double.selfDelimiting_text same
          exact ⟨rfl, rest⟩

/-- No literal starts with the letter that stands in front of a line number. -/
theorem debugForm_append_ne (l : Literal) (s t : Text) : l.debugForm ++ s ≠ 'L' :: t := by
  intro same
  cases l with
  | text body =>
      have quote : body.quoteMark = 'L' := (List.cons.inj same).1
      rcases body.quoteMark_eq with mark | mark
      · exact absurd (mark.symm.trans quote) (by decide)
      · exact absurd (mark.symm.trans quote) (by decide)
  | number x =>
      obtain ⟨c, rest, front, numeric⟩ := x.exists_text_eq_cons
      simp only [debugForm, front, List.cons_append] at same
      rw [(List.cons.inj same).1] at numeric
      exact absurd numeric (by decide)

end Literal

namespace Token

/-- What stands in a debug form between the lexeme and the line number. -/
def literalForm (literal : Option Literal) : Text :=
  (literal.map fun l => ", ".toList ++ l.debugForm).getD [] ++ ", L".toList

/-- A literal that is not there is not mistaken for one that is. -/
theorem selfDelimiting_literalForm : Text.SelfDelimiting literalForm := by
  intro a b s t same
  cases a with
  | none =>
      cases b with
      | none => exact ⟨rfl, List.append_cancel_left same⟩
      | some b =>
          have behind : 'L' :: s = b.debugForm ++ (", L".toList ++ t) := by
            simpa [literalForm] using same
          exact absurd behind.symm (b.debugForm_append_ne _ _)
  | some a =>
      cases b with
      | none =>
          have behind : a.debugForm ++ (", L".toList ++ s) = 'L' :: t := by
            simpa [literalForm] using same
          exact absurd behind (a.debugForm_append_ne _ _)
      | some b =>
          have behind : a.debugForm ++ [','] ++ (" L".toList ++ s) =
              b.debugForm ++ [','] ++ (" L".toList ++ t) := by
            simpa [literalForm] using same
          obtain ⟨rfl, rest⟩ := Literal.selfDelimiting_debugForm behind
          exact ⟨rfl, List.append_cancel_left rest⟩

/-! ## Tokens -/

/-- The parts of a debug form from left to right. -/
theorem debugForm_append (t : Token) (s : Text) :
    t.debugForm ++ s = "Token(".toList ++ ((t.kind.name ++ [',']) ++ (' ' :: (t.lexeme.quoted ++
      (literalForm t.literal ++ ((Text.ofInt t.line ++ [')']) ++ s))))) := by
  have comma : ", ".toList = [','] ++ [' '] := rfl
  unfold debugForm literalForm
  simp only [comma, List.append_assoc, List.cons_append, List.nil_append]

/-- The debug form of a token shows where it ends. -/
theorem selfDelimiting_debugForm : Text.SelfDelimiting debugForm := by
  rintro ⟨kind, lexeme, literal, line⟩ ⟨kind', lexeme', literal', line'⟩ s t same
  rw [debugForm_append, debugForm_append] at same
  obtain ⟨rfl, behind_kind⟩ := Kind.selfDelimiting_name (List.append_cancel_left same)
  obtain ⟨rfl, behind_lexeme⟩ := Text.selfDelimiting_quoted (List.cons.inj behind_kind).2
  obtain ⟨rfl, behind_literal⟩ := selfDelimiting_literalForm behind_lexeme
  obtain ⟨rfl, rest⟩ := Text.selfDelimiting_ofInt behind_literal
  exact ⟨rfl, rest⟩

/-- **The debug form of a token tells everything about it.**  Two tokens, whatever their parts are,
    have the same debug form exactly if they have the same kind, the same lexeme, the same
    literal and the same line.  For literals this means that both are missing, or both are the
    same text, or both are the same double: zeros of different sign are told apart, and a NaN
    is only the same as a NaN. -/
theorem debugForm_eq_iff (s t : Token) :
    s.debugForm = t.debugForm ↔
      s.kind = t.kind ∧ s.lexeme = t.lexeme ∧ s.literal = t.literal ∧ s.line = t.line := by
  constructor
  · intro same
    have followed : s.debugForm ++ [] = t.debugForm ++ [] := congrArg (· ++ []) same
    obtain ⟨rfl, -⟩ := selfDelimiting_debugForm followed
    exact ⟨rfl, rfl, rfl, rfl⟩
  · cases s
    cases t
    rintro ⟨rfl, rfl, rfl, rfl⟩
    rfl

/-- A lexeme that looks like a shorter lexeme with a literal behind it, and a token with both. -/
example : (⟨.string, "a', 'b".toList, none, -1⟩ : Token).debugForm =
      "Token(STRING, \"a', 'b\", L-1)".toList ∧
    (⟨.string, "a".toList, some (.text "b".toList), -1⟩ : Token).debugForm =
      "Token(STRING, 'a', 'b', L-1)".toList := by
  decide +kernel

end Token

end Pseudocode

import Pseudocode.Proofs.Digits
import Pseudocode.Proofs.LineStamp
import Pseudocode.Proofs.Printed
import Pseudocode.Text.LineEnd

/-!
# Lines of printed tokens

A printed token is meant to be a line of its own, and it is one unless it is a string that goes
across a line end (`length_lines_printed`): such a string is printed with its line ends, once in the
lexeme and once in the literal, and breaks into as many more lines.  The route:

* control sequences have no line ends inside, so echoing a text adds one line end and deletes
  none (`count_echoed`);
* hence what is printed has one line end for each token, and two more for each line end in a
  lexeme (`count_printed`), since nothing else in a display has any;
* and a text of texts that end in their only line ends has these as its lines
  (`Text.lines_flatten`).
-/

namespace Pseudocode

/-! ## Lines -/

namespace Text

/-- A text closed by a line end has as many lines as line ends. -/
theorem length_lines (s : Text) : (lines (s ++ [lineEnd])).length = s.count lineEnd + 1 := by
  induction s with
  | nil => rfl
  | cons c s ih =>
      rw [List.cons_append, lines]
      by_cases ends : c = lineEnd
      · subst ends
        rw [if_pos rfl, List.length_cons, ih, List.count_cons_self]
      · rw [if_neg ends, List.count_cons_of_ne ends]
        cases cut : lines (s ++ [lineEnd]) with
        | nil =>
            rw [cut] at ih
            exact absurd ih (by simp)
        | cons line more =>
            rw [cut] at ih
            exact ih

theorem lines_append {s : Text} (one_line : lineEnd ∉ s) (rest : Text) :
    lines (s ++ lineEnd :: rest) = (s ++ [lineEnd]) :: lines rest := by
  induction s with
  | nil => rfl
  | cons c s ih =>
      obtain ⟨other, inside⟩ := not_or.mp (mt List.mem_cons.mpr one_line)
      rw [List.cons_append, lines, if_neg (Ne.symm other), ih inside]
      rfl

/-- Texts that end in their only line ends are the lines of the text that they make. -/
theorem lines_flatten {texts : List Text} (one_line : ∀ s ∈ texts, lineEnd ∉ s) :
    lines (texts.flatMap (· ++ [lineEnd])) = texts.map (· ++ [lineEnd]) := by
  induction texts with
  | nil => rfl
  | cons s texts ih =>
      obtain ⟨first, later⟩ := List.forall_mem_cons.mp one_line
      rw [List.flatMap_cons, List.append_assoc, List.singleton_append, lines_append first,
        ih later, List.map_cons]

/-! ## Line ends and control sequences -/

/-- A control sequence has no line end inside. -/
theorem exists_append_of_afterControlSequence? {s after : Text}
    (found : afterControlSequence? s = some after) :
    ∃ sequence, s = sequence ++ after ∧ lineEnd ∉ sequence := by
  unfold afterControlSequence? at found
  split at found
  · rename_i c rest
    split at found
    · rename_i start
      subst start
      split at found
      · exact nomatch found
      · rename_i final tail drop
        split at found
        · rename_i letter
          obtain rfl := Option.some.inj found
          have cut := List.takeWhile_append_dropWhile (p := isControlParameter) (l := rest)
          rw [drop] at cut
          refine ⟨escape :: '[' :: (rest.takeWhile isControlParameter ++ [final]), ?_, ?_⟩
          · rw [List.cons_append, List.cons_append, List.append_assoc, List.singleton_append, cut]
          · intro mem
            rcases List.mem_cons.mp mem with same | mem
            · exact absurd same (by decide)
            rcases List.mem_cons.mp mem with same | mem
            · exact absurd same (by decide)
            rcases List.mem_append.mp mem with parameter | mem
            · exact absurd (List.mem_takeWhile_imp parameter) (by decide)
            · obtain rfl := List.mem_singleton.mp mem
              exact absurd letter (by decide)
        · exact nomatch found
    · exact nomatch found
  · exact nomatch found

theorem count_withoutControlSequences (s : Text) :
    s.withoutControlSequences.count lineEnd = s.count lineEnd := by
  fun_induction withoutControlSequences s with
  | case1 => rfl
  | case2 c rest after found ih =>
      obtain ⟨sequence, whole, inside⟩ := exists_append_of_afterControlSequence? found
      rw [ih, whole, List.count_append, List.count_eq_zero.mpr inside, Nat.zero_add]
  | case3 c rest none ih => rw [List.count_cons, List.count_cons, ih]

end Text

/-! ## Displays -/

theorem Kind.lineEnd_not_mem_name (k : Kind) : Text.lineEnd ∉ k.name := by
  intro mem
  exact absurd (isWordStart_of_mem_name mem) (by decide)

/-- A token that can be found shows the line ends of its lexeme twice, and no others. -/
theorem Token.Found.count_display {t : Token} (found : t.Found) :
    t.display.count Text.lineEnd = 2 * t.lexeme.count Text.lineEnd := by
  have shown : t.display.count Text.lineEnd = t.lexeme.count Text.lineEnd +
      ((t.literal.map Literal.display).getD "null".toList).count Text.lineEnd := by
    have name := List.count_eq_zero.mpr t.kind.lineEnd_not_mem_name
    have blank : ' ' ≠ Text.lineEnd := by decide
    rw [display, List.append_assoc, List.count_append, name, List.cons_append,
      List.count_cons_of_ne blank, List.count_append, List.count_cons_of_ne blank, Nat.zero_add]
  -- a literal shows the line ends of the lexeme if the token is a string, and else there are none
  have literal : ((t.literal.map Literal.display).getD "null".toList).count Text.lineEnd =
      t.lexeme.count Text.lineEnd := by
    cases found with
    | eof line => rfl
    | @lexeme l wf line =>
        by_cases string : l.kind = .string
        · cases l with
          | string body =>
              show body.count Text.lineEnd = (quoteChar :: body ++ [quoteChar]).count Text.lineEnd
              rw [count_lineEnd_append_quote, List.count_cons_of_ne (by decide)]
          | word letters => exact absurd string (Kind.ofWord_ne_string letters)
          | operator o => cases string
          | number whole fraction => cases string
        · have none : l.text.count Text.lineEnd = 0 :=
            List.count_eq_zero.mpr (l.lineEnd_not_mem_text wf string)
          show _ = l.text.count Text.lineEnd
          rw [none]
          cases l with
          | number whole fraction =>
              show (Double.ofDecimal false _).text.count Text.lineEnd = 0
              refine List.count_eq_zero.mpr fun mem => ?_
              have numeric : isNumeric Text.lineEnd := Double.isNumeric_of_mem_text mem
              exact absurd numeric (by decide)
          | string body => exact absurd rfl string
          | _ => rfl
  omega

/-- Among the tokens that can be found only strings go across a line end. -/
theorem Token.Found.lineEnd_not_mem_lexeme {t : Token} (found : t.Found)
    (other : t.kind ≠ .string) : Text.lineEnd ∉ t.lexeme := by
  cases found with
  | lexeme wf line => exact Lexeme.lineEnd_not_mem_text wf other
  | eof line => exact List.not_mem_nil

namespace Command

/-! ## What is printed -/

theorem count_echoed (text : Text) :
    (echoed text).count Text.lineEnd = text.count Text.lineEnd + 1 := by
  rw [echoed, List.count_append, Text.count_withoutControlSequences]
  rfl

/-- What is printed of tokens are their displays without control sequences, each of which is
    closed by a line end. -/
theorem printed_eq (ts : List Token) :
    printed ts = (ts.map (·.display.withoutControlSequences)).flatMap (· ++ [Text.lineEnd]) := by
  rw [List.flatMap_map]
  exact List.flatMap_map ..

theorem count_printed {ts : List Token} (found : ∀ t ∈ ts, t.Found) :
    (printed ts).count Text.lineEnd =
      ts.length + 2 * (ts.flatMap Token.lexeme).count Text.lineEnd := by
  induction ts with
  | nil => rfl
  | cons t ts ih =>
      obtain ⟨first, later⟩ := List.forall_mem_cons.mp found
      rw [printed_cons, List.count_append, count_echoed, first.count_display, ih later,
        List.length_cons, List.flatMap_cons, List.count_append]
      omega

/-- What is printed of tokens is closed by a line end. -/
theorem exists_printed_eq_concat {ts : List Token} (nonempty : ts ≠ []) :
    ∃ front, printed ts = front ++ [Text.lineEnd] := by
  obtain ⟨ts, t, rfl⟩ := (List.eq_nil_or_concat' ts).resolve_left nonempty
  refine ⟨printed ts ++ t.display.withoutControlSequences, ?_⟩
  rw [printed_eq, printed_eq, List.map_append, List.flatMap_append, List.map_singleton,
    List.flatMap_singleton, List.append_assoc]

/-- No string among the tokens goes across a line end. -/
def OneLineEach (ts : List Token) : Prop :=
  ∀ t ∈ ts, t.kind = .string → Text.lineEnd ∉ t.lexeme

section

variable {ts : List Token} (found : ∀ t ∈ ts, t.Found)
include found

theorem OneLineEach.lineEnd_not_mem (one_line : OneLineEach ts) {t : Token} (mem : t ∈ ts) :
    Text.lineEnd ∉ t.lexeme := by
  by_cases string : t.kind = .string
  · exact one_line t mem string
  · exact (found t mem).lineEnd_not_mem_lexeme string

theorem oneLineEach_iff :
    OneLineEach ts ↔ (ts.flatMap Token.lexeme).count Text.lineEnd = 0 := by
  rw [List.count_eq_zero, List.mem_flatMap, not_exists]
  constructor
  · rintro one_line t ⟨token, inside⟩
    exact one_line.lineEnd_not_mem found token inside
  · intro none t token _ inside
    exact none t ⟨token, inside⟩

theorem OneLineEach.lines_printed (one_line : OneLineEach ts) :
    (printed ts).lines = ts.map (echoed ·.display) := by
  have inside : ∀ s ∈ ts.map (·.display.withoutControlSequences), Text.lineEnd ∉ s := by
    intro s mem
    obtain ⟨t, token, rfl⟩ := List.mem_map.mp mem
    have none := List.count_eq_zero.mpr (one_line.lineEnd_not_mem found token)
    refine List.count_eq_zero.mp ?_
    rw [Text.count_withoutControlSequences, (found t token).count_display, none]
  rw [printed_eq, Text.lines_flatten inside, List.map_map]
  rfl

end

/-- **A printed token is a line of its own unless it is a string across a line end.**  For every
    source,
    1. what is printed of its tokens is closed by a line end, and has one line for each token
       and two more for each line end that stands in a lexeme;
    2. hence there are as many lines as tokens exactly if no string goes across a line end;
    3. and then the lines are in order the displays of the tokens without control sequences,
       each with its line end. -/
theorem length_lines_printed (src : Source) :
    (printed src.scan.tokens).getLast? = some Text.lineEnd ∧
    (printed src.scan.tokens).lines.length = src.scan.tokens.length +
      2 * (src.scan.tokens.flatMap Token.lexeme).count Text.lineEnd ∧
    ((printed src.scan.tokens).lines.length = src.scan.tokens.length ↔
      OneLineEach src.scan.tokens) ∧
    (OneLineEach src.scan.tokens →
      (printed src.scan.tokens).lines = src.scan.tokens.map (echoed ·.display)) := by
  have found : ∀ t ∈ src.scan.tokens, t.Found := fun _ mem => Source.found_of_mem mem
  have nonempty : src.scan.tokens ≠ [] :=
    List.append_ne_nil_of_right_ne_nil _ (List.cons_ne_nil _ _)
  obtain ⟨front, closed⟩ := exists_printed_eq_concat nonempty
  have length : (printed src.scan.tokens).lines.length =
      src.scan.tokens.length +
        2 * (src.scan.tokens.flatMap Token.lexeme).count Text.lineEnd := by
    rw [← count_printed found, closed, Text.length_lines, List.count_append]
    rfl
  refine ⟨?_, length, ?_, OneLineEach.lines_printed found⟩
  · rw [closed, List.getLast?_concat]
  · rw [length, oneLineEach_iff found]
    omega

/-- A string across a line end is printed on three lines, not on one. -/
theorem not_length_lines_printed_two_line_string :
    (Source.ofText "\"a\nb\"".toList "p".toList).scan.tokens.length = 2 ∧
    (printed (Source.ofText "\"a\nb\"".toList "p".toList).scan.tokens).lines =
      ["STRING \"a\n".toList, "b\" a\n".toList, "b\n".toList, "EOF  null\n".toList] ∧
    ¬ ∀ src : Source,
      (printed src.scan.tokens).lines = src.scan.tokens.map (echoed ·.display) := by
  have lines : (printed (Source.ofText "\"a\nb\"".toList "p".toList).scan.tokens).lines =
      ["STRING \"a\n".toList, "b\" a\n".toList, "b\n".toList, "EOF  null\n".toList] := by
    decide +kernel
  have tokens : (Source.ofText "\"a\nb\"".toList "p".toList).scan.tokens.length = 2 := by
    decide +kernel
  refine ⟨tokens, lines, ?_⟩
  intro each
  have same := congrArg List.length (each (.ofText "\"a\nb\"".toList "p".toList))
  rw [lines, List.length_map, tokens] at same
  exact absurd same (by decide)

end Command

end Pseudocode

import Mathlib.Data.List.TakeWhile
import Pseudocode.Piece

/-!
# Cutting

Which cut of a text is the one that `pieces` makes?  The answer is local: a piece
*fits* before a text if it is what its name says (`Piece.Stands`) and the text does
not continue it (`Lexeme.EndsBefore`), and a list of pieces fits if every piece fits
before what comes after it (`FitBefore`).  The route:

* the first piece fits before the rest (`fits_first`), and it is the only one that
  does (`first_of_fits`), since each kind of piece ends where its run of characters
  ends;
* hence the pieces of a text fit (`fitBefore_pieces`), and pieces that fit before a
  text come out again, whatever that text is (`pieces_of_fitBefore`).

The second law is the one to cite: to learn how a text is cut, write down the pieces
and show that they fit.  Nothing behind this file unfolds the functions that cut.
-/

namespace Pseudocode

/-! ## Runs of characters -/

/-- A run of characters with the property `p` ends before the text: the text is empty or
    starts with another character. -/
def RunEnds (p : Char → Bool) (rest : Text) : Prop :=
  ∀ c ∈ rest.head?, p c = false

namespace RunEnds

variable {p : Char → Bool}

theorem nil : RunEnds p [] := by
  intro c hc
  exact nomatch hc

theorem cons {c : Char} {rest : Text} (h : p c = false) : RunEnds p (c :: rest) := by
  intro d hd
  rw [← Option.some.inj hd]
  exact h

theorem head {c : Char} {rest : Text} (h : RunEnds p (c :: rest)) : p c = false :=
  h c rfl

/-- What stands after a longest run ends the run. -/
theorem dropWhile (s : Text) : RunEnds p (s.dropWhile p) := by
  intro c hc
  have h := List.head?_dropWhile_not p s
  rw [Option.mem_def.mp hc] at h
  exact h

/-- Every text is a longest run and what ends it. -/
theorem exists_cut (p : Char → Bool) (s : Text) :
    ∃ run rest, s = run ++ rest ∧ (∀ c ∈ run, p c) ∧ RunEnds p rest :=
  ⟨s.takeWhile p, s.dropWhile p, List.takeWhile_append_dropWhile.symm,
    fun _ mem => List.mem_takeWhile_imp mem, dropWhile s⟩

/-- A run that ends before `rest` is the longest one. -/
theorem takeWhile_append {run rest : Text} (h : RunEnds p rest) (inside : ∀ c ∈ run, p c) :
    (run ++ rest).takeWhile p = run := by
  rw [List.takeWhile_append_of_pos inside]
  cases rest with
  | nil => simp
  | cons c rest => simp [h.head]

theorem dropWhile_append {run rest : Text} (h : RunEnds p rest) (inside : ∀ c ∈ run, p c) :
    (run ++ rest).dropWhile p = rest := by
  rw [List.dropWhile_append_of_pos inside]
  cases rest with
  | nil => rfl
  | cons c rest => simp [h.head]

end RunEnds

/-! ## Classes of characters

    `Piece.first` asks for blanks, quotes, digits, word starts and operators in this
    order.  The order does not matter, because the classes are disjoint. -/

theorem isBlank_iff {c : Char} : isBlank c ↔ c = ' ' ∨ c = '\t' ∨ c = '\r' ∨ c = '\n' := by
  simp [isBlank, or_assoc]

theorem classes_of_isBlank {c : Char} (blank : isBlank c) :
    c.isDigit = false ∧ isWordStart c = false := by
  rcases isBlank_iff.mp blank with rfl | rfl | rfl | rfl <;> decide

theorem classes_of_isDigit {c : Char} (digit : c.isDigit) : isBlank c = false ∧ c ≠ quoteChar := by
  constructor
  · cases blank : isBlank c with
    | false => rfl
    | true =>
        rw [(classes_of_isBlank blank).1] at digit
        exact Bool.noConfusion digit
  · rintro rfl
    exact absurd digit (by decide)

theorem classes_of_isWordStart {c : Char} (start : isWordStart c) :
    isBlank c = false ∧ c ≠ quoteChar ∧ c.isDigit = false := by
  refine ⟨?_, ?_, ?_⟩
  · cases blank : isBlank c with
    | false => rfl
    | true =>
        rw [(classes_of_isBlank blank).2] at start
        exact Bool.noConfusion start
  · rintro rfl
    exact absurd start (by decide)
  · have letter : c.isAlpha = true ∨ c = '_' := by simpa [isWordStart] using start
    rcases letter with letter | rfl
    · refine Bool.eq_false_iff.mpr fun digit => ?_
      -- letters and digits are ranges of code points that do not meet
      have high : c.val ≤ '9'.val := of_decide_eq_true (Bool.and_eq_true_iff.mp digit).2
      have low : 'A'.val ≤ c.val := by
        rcases Bool.or_eq_true_iff.mp letter with upper | lower
        · exact (of_decide_eq_true upper).1
        · have range : 'a'.val ≤ c.val := of_decide_eq_true (Bool.and_eq_true_iff.mp lower).1
          exact UInt32.le_trans (by decide) range
      exact absurd (UInt32.le_trans low high) (by decide)
    · rfl

theorem classes_of_ofChar? {c : Char} {o : Operator} (op : Operator.ofChar? c = some o) :
    isBlank c = false ∧ c ≠ quoteChar ∧ c.isDigit = false ∧ isWordStart c = false := by
  have spelled := Operator.spelling_of_ofChar? op
  cases o with
  | bangEqual | equalEqual | greaterEqual | lessEqual => exact nomatch spelled
  | _ =>
      obtain rfl := (List.cons.inj spelled).1
      decide

/-! ## Pieces that fit -/

/-- The character starts no lexeme and is no blank.  It starts no comment either, since
    a comment starts like an operator. -/
def StartsNothing (c : Char) : Prop :=
  isBlank c = false ∧ ∀ l : Lexeme, l.WellFormed → l.text.head? ≠ some c

/-- Nothing at the front of the text continues the lexeme: no equals sign makes a longer
    operator, no slash makes a comment, no character prolongs a word or a number, and
    no point with a digit behind it makes a fraction. -/
def Lexeme.EndsBefore : Lexeme → Text → Prop
  | operator o, rest =>
    (o.withEqual? ≠ none → rest.head? ≠ some '=') ∧ (o = .slash → rest.head? ≠ some '/')
  | word _, rest => RunEnds isWordPart rest
  | number _ fraction, rest =>
    RunEnds Char.isDigit rest ∧
      (fraction = none → ∀ d tail, rest = '.' :: d :: tail → d.isDigit = false)
  | string _, _ => True

/-- The end of the text ends every lexeme. -/
theorem Lexeme.endsBefore_nil (l : Lexeme) : l.EndsBefore [] := by
  cases l with
  | operator o => exact ⟨fun _ => nofun, fun _ => nofun⟩
  | word letters => exact .nil
  | number whole fraction => exact ⟨.nil, fun _ _ _ => nofun⟩
  | string body => trivial

/-- A blank ends every lexeme: it is no equals sign, slash, point or digit and no part of
    a word. -/
theorem Lexeme.endsBefore_blank (l : Lexeme) {c : Char} (s : Text) (blank : isBlank c) :
    l.EndsBefore (c :: s) := by
  have isNot : ∀ d, isBlank d = false → c ≠ d := by
    rintro d other rfl
    rw [other] at blank
    exact Bool.noConfusion blank
  obtain ⟨digit, start⟩ := classes_of_isBlank blank
  cases l with
  | operator o =>
      exact ⟨fun _ head => isNot '=' (by decide) (Option.some.inj head),
        fun _ head => isNot '/' (by decide) (Option.some.inj head)⟩
  | word letters => exact .cons (by simp [isWordPart, start, digit])
  | number whole fraction =>
      refine ⟨.cons digit, ?_⟩
      intro _ d tail front
      exact absurd (List.cons.inj front).1 (isNot '.' (by decide))
  | string body => trivial

namespace Piece

/-- The lexeme that the piece is. -/
def lexeme? : Piece → Option Lexeme
  | lexeme l => some l
  | _ => none

/-- The piece is what its name says where it stands, with `rest` behind it: a lexeme is
    well formed, a comment reaches to the end of its line, a stray character could not
    be anything else, and an open string reaches to the end without a quote. -/
def Stands : Piece → Text → Prop
  | lexeme l, _ => l.WellFormed
  | blank c, _ => isBlank c
  | comment body, rest => Text.lineEnd ∉ body ∧ RunEnds (· != Text.lineEnd) rest
  | stray c, _ => StartsNothing c
  | openString body, rest => quoteChar ∉ body ∧ rest = []

/-- The piece stands before `rest` and nothing in `rest` belongs to it. -/
def Fits (p : Piece) (rest : Text) : Prop :=
  p.Stands rest ∧ ∀ l ∈ p.lexeme?, l.EndsBefore rest

theorem fits_lexeme {l : Lexeme} {rest : Text} :
    (lexeme l).Fits rest ↔ l.WellFormed ∧ l.EndsBefore rest := by
  simp [Fits, Stands, lexeme?]

/-- What is no lexeme fits wherever it stands. -/
theorem fits_of_stands {p : Piece} {rest : Text} (no_lexeme : p.lexeme? = none)
    (stands : p.Stands rest) : p.Fits rest := by
  refine ⟨stands, ?_⟩
  intro l mem
  rw [no_lexeme] at mem
  exact absurd mem (Option.not_mem_none l)

end Piece

/-! ### Stray characters -/

theorem Operator.ofChar?_of_spelling {o : Operator} {c : Char} (h : o.spelling.head? = some c) :
    ofChar? c ≠ none := by
  cases o <;> obtain rfl := Option.some.inj h <;> decide

/-- A character starts nothing exactly if none of the questions that `Piece.first` asks
    about it has the answer yes. -/
theorem startsNothing_iff {c : Char} :
    StartsNothing c ↔ isBlank c = false ∧ c ≠ quoteChar ∧ c.isDigit = false ∧
      isWordStart c = false ∧ Operator.ofChar? c = none := by
  constructor
  · rintro ⟨blank, lexemes⟩
    refine ⟨blank, ?_, ?_, ?_, ?_⟩
    · rintro rfl
      exact lexemes (.string []) (by simp [Lexeme.WellFormed]) rfl
    · cases digit : c.isDigit with
      | false => rfl
      | true => exact absurd rfl (lexemes (.number [c] none) (by simp [Lexeme.WellFormed, digit]))
    · cases start : isWordStart c with
      | false => rfl
      | true => exact absurd rfl (lexemes (.word [c]) ⟨c, [], rfl, start, by simp⟩)
    · cases op : Operator.ofChar? c with
      | none => rfl
      | some o =>
          have spelled := Operator.spelling_of_ofChar? op
          exact absurd (congrArg List.head? spelled) (lexemes (.operator o) trivial)
  · rintro ⟨blank, quote, digit, start, op⟩
    refine ⟨blank, ?_⟩
    intro l wf head
    cases l with
    | operator o => exact Operator.ofChar?_of_spelling head op
    | word letters =>
        obtain ⟨d, rest, rfl, startD, -⟩ := wf
        obtain rfl := Option.some.inj head
        exact absurd startD (by simp [start])
    | number whole fraction =>
        obtain ⟨⟨nonempty, digits⟩, -⟩ := wf
        obtain ⟨d, rest, rfl⟩ := List.exists_cons_of_ne_nil nonempty
        have same : d = c := by
          cases fraction <;> exact Option.some.inj head
        have digitD := digits d List.mem_cons_self
        rw [same, digit] at digitD
        exact absurd digitD Bool.false_ne_true
    | string body => exact quote (Option.some.inj head).symm

/-! ### The first piece fits -/

namespace Piece

theorem fits_takeString (s : Text) : (takeString s).1.Fits (takeString s).2 := by
  unfold takeString
  split
  · rename_i drop
    have noQuote : quoteChar ∉ s := by
      intro mem
      have := List.dropWhile_eq_nil_iff.mp drop quoteChar mem
      exact absurd this (by decide)
    exact fits_of_stands rfl ⟨noQuote, rfl⟩
  · refine fits_lexeme.mpr ⟨?_, trivial⟩
    intro mem
    exact absurd (List.mem_takeWhile_imp mem) (by decide)

theorem fits_takeComment (s : Text) : (takeComment s).1.Fits (takeComment s).2 := by
  refine fits_of_stands rfl ⟨?_, RunEnds.dropWhile s⟩
  intro mem
  exact absurd (List.mem_takeWhile_imp mem) (by decide)

/-- With its equals sign an operator is complete. -/
theorem endsBefore_withEqual {o longer : Operator} (h : o.withEqual? = some longer)
    (rest : Text) : (Lexeme.operator longer).EndsBefore rest := by
  have complete : longer.withEqual? = none ∧ longer ≠ .slash := by
    cases o with
    | bang | equal | greater | less =>
        obtain rfl := Option.some.inj h
        exact ⟨rfl, by decide⟩
    | _ => exact nomatch h
  exact ⟨fun lengthens => absurd complete.1 lengthens, fun slash => absurd slash complete.2⟩

theorem fits_takeOperator {o : Operator} {s : Text} (slash : o = .slash → s.head? ≠ some '/') :
    (takeOperator o s).1.Fits (takeOperator o s).2 := by
  unfold takeOperator
  split
  · rename_i longer rest h
    exact fits_lexeme.mpr ⟨trivial, endsBefore_withEqual h rest⟩
  · rename_i short
    refine fits_lexeme.mpr ⟨trivial, ?_, slash⟩
    intro lengthens head
    obtain ⟨longer, h⟩ := Option.ne_none_iff_exists'.mp lengthens
    obtain ⟨rest, same⟩ := List.head?_eq_some_iff.mp head
    exact short longer rest h same

theorem fits_takeNumber {c : Char} (s : Text) (digit : c.isDigit) :
    (takeNumber (c :: s)).1.Fits (takeNumber (c :: s)).2 := by
  have ends := RunEnds.dropWhile (p := Char.isDigit) (c :: s)
  have digits : (c :: s).takeWhile Char.isDigit ≠ [] ∧
      ∀ d ∈ (c :: s).takeWhile Char.isDigit, d.isDigit :=
    ⟨by simp [digit], fun d mem => List.mem_takeWhile_imp mem⟩
  unfold takeNumber
  split
  · rename_i d rest drop
    split
    · rename_i digitD
      refine fits_lexeme.mpr ⟨⟨digits, ?_⟩, RunEnds.dropWhile _, fun h => nomatch h⟩
      intro fraction mem
      rw [← Option.some.inj mem]
      exact ⟨by simp [digitD], fun e mem => List.mem_takeWhile_imp mem⟩
    · rename_i digitD
      rw [drop] at ends
      refine fits_lexeme.mpr ⟨⟨digits, fun _ mem => nomatch mem⟩, ends, ?_⟩
      intro _ e tail same
      rw [List.cons.injEq, List.cons.injEq] at same
      rw [← same.2.1]
      exact Bool.eq_false_iff.mpr digitD
  · rename_i noFraction
    refine fits_lexeme.mpr ⟨⟨digits, fun _ mem => nomatch mem⟩, ends, ?_⟩
    intro _ d tail same
    exact absurd same (noFraction d tail)

theorem fits_takeWord {c : Char} (s : Text) (start : isWordStart c) :
    (takeWord (c :: s)).1.Fits (takeWord (c :: s)).2 := by
  have part := isWordPart_of_isWordStart start
  refine fits_lexeme.mpr ⟨⟨c, s.takeWhile isWordPart, ?_, start, ?_⟩, RunEnds.dropWhile _⟩
  · exact List.takeWhile_cons_of_pos part
  · intro d mem
    exact List.mem_takeWhile_imp mem

theorem fits_first (c : Char) (s : Text) : (first c s).1.Fits (first c s).2 := by
  unfold first
  split
  · rename_i blank
    exact fits_of_stands rfl blank
  split
  · exact fits_takeString s
  split
  · rename_i digit
    exact fits_takeNumber s digit
  split
  · rename_i start
    exact fits_takeWord s start
  rename_i blank quote digit start
  split
  · exact fits_takeComment _
  · rename_i noComment
    refine fits_takeOperator ?_
    rintro rfl head
    obtain ⟨rest, same⟩ := List.head?_eq_some_iff.mp head
    exact noComment rest same rfl
  · rename_i op
    have nothing : StartsNothing c :=
      startsNothing_iff.mpr ⟨by simpa using blank, quote, by simpa using digit,
        by simpa using start, op⟩
    exact fits_of_stands rfl nothing

/-! ### Only one piece fits -/

theorem takeString_closed {body : Text} (rest : Text) (noQuote : quoteChar ∉ body) :
    takeString (body ++ quoteChar :: rest) = (lexeme (.string body), rest) := by
  have inside : ∀ c ∈ body, (c != quoteChar) = true := fun _ => Text.bne_of_mem noQuote
  have ends : RunEnds (· != quoteChar) (quoteChar :: rest) := RunEnds.cons (by decide)
  unfold takeString
  rw [ends.dropWhile_append inside, ends.takeWhile_append inside]

theorem takeString_open {body : Text} (noQuote : quoteChar ∉ body) :
    takeString body = (openString body, []) := by
  have drop : body.dropWhile (· != quoteChar) = [] :=
    List.dropWhile_eq_nil_iff.mpr fun _ => Text.bne_of_mem noQuote
  unfold takeString
  rw [drop]

theorem takeComment_of_stands {body rest : Text} (stands : (comment body).Stands rest) :
    takeComment (body ++ rest) = (comment body, rest) := by
  obtain ⟨noLineEnd, ends⟩ := stands
  have inside : ∀ c ∈ body, (c != Text.lineEnd) = true := fun _ => Text.bne_of_mem noLineEnd
  rw [takeComment, ends.takeWhile_append inside, ends.dropWhile_append inside]

theorem takeOperator_of_ends {o : Operator} {rest : Text}
    (ends : (Lexeme.operator o).EndsBefore rest) :
    takeOperator o rest = (lexeme (.operator o), rest) := by
  unfold takeOperator
  split
  · rename_i longer tail lengthens
    exact absurd rfl (ends.1 (by rw [lengthens]; exact Option.some_ne_none _))
  · rfl

theorem takeNumber_of_fits {whole rest : Text} {fraction : Option Text}
    (fits : (lexeme (.number whole fraction)).Fits rest) :
    takeNumber ((Lexeme.number whole fraction).text ++ rest)
      = (lexeme (.number whole fraction), rest) := by
  obtain ⟨⟨⟨-, digits⟩, fractionDigits⟩, ends, noFraction⟩ := fits_lexeme.mp fits
  cases fraction with
  | none =>
      show takeNumber (whole ++ rest) = _
      unfold takeNumber
      rw [ends.dropWhile_append digits, ends.takeWhile_append digits]
      split
      · rename_i d tail
        rw [if_neg (by rw [noFraction rfl d tail rfl]; exact Bool.false_ne_true)]
      · rfl
  | some fraction =>
      obtain ⟨nonempty, inside⟩ := fractionDigits fraction rfl
      obtain ⟨d, tail, rfl⟩ := List.exists_cons_of_ne_nil nonempty
      have point : RunEnds Char.isDigit ('.' :: (d :: tail ++ rest)) := RunEnds.cons (by decide)
      show takeNumber ((whole ++ '.' :: d :: tail) ++ rest) = _
      rw [List.append_assoc, List.cons_append]
      unfold takeNumber
      rw [point.dropWhile_append digits, point.takeWhile_append digits]
      show (if d.isDigit then
        (lexeme (.number whole (some ((d :: tail ++ rest).takeWhile Char.isDigit))),
          (d :: tail ++ rest).dropWhile Char.isDigit) else _) = _
      rw [if_pos (inside d List.mem_cons_self), ends.takeWhile_append inside,
        ends.dropWhile_append inside]

theorem takeWord_of_fits {letters rest : Text} (fits : (lexeme (.word letters)).Fits rest) :
    takeWord (letters ++ rest) = (lexeme (.word letters), rest) := by
  obtain ⟨wf, ends⟩ := fits_lexeme.mp fits
  have inside := wf.forall_isWordPart
  rw [takeWord, ends.takeWhile_append inside, ends.dropWhile_append inside]

theorem first_operator {c : Char} {o : Operator} {s : Text} (op : Operator.ofChar? c = some o)
    (noComment : o = .slash → s.head? ≠ some '/') : first c s = takeOperator o s := by
  obtain ⟨blank, quote, digit, start⟩ := classes_of_ofChar? op
  unfold first
  rw [if_neg (by simp [blank]), if_neg quote, if_neg (by simp [digit]), if_neg (by simp [start]),
    op]
  split
  · rename_i slash
    exact absurd rfl (noComment (Option.some.inj slash))
  · rename_i same _
    rw [Option.some.inj same]
  · rename_i none
    exact nomatch none

theorem first_comment (s : Text) : first '/' ('/' :: s) = takeComment s :=
  rfl

theorem first_wordStart {c : Char} (s : Text) (start : isWordStart c) :
    first c s = takeWord (c :: s) := by
  obtain ⟨blank, quote, digit⟩ := classes_of_isWordStart start
  unfold first
  rw [if_neg (by simp [blank]), if_neg quote, if_neg (by simp [digit]), if_pos start]

theorem first_digit {c : Char} (s : Text) (digit : c.isDigit) :
    first c s = takeNumber (c :: s) := by
  obtain ⟨blank, quote⟩ := classes_of_isDigit digit
  unfold first
  rw [if_neg (by simp [blank]), if_neg quote, if_pos digit]

theorem first_blank {c : Char} (s : Text) (is_blank : isBlank c) : first c s = (blank c, s) := by
  unfold first
  rw [if_pos is_blank]

theorem first_stray {c : Char} (s : Text) (nothing : StartsNothing c) :
    first c s = (stray c, s) := by
  obtain ⟨blank, quote, digit, start, op⟩ := startsNothing_iff.mp nothing
  unfold first
  rw [if_neg (by simp [blank]), if_neg quote, if_neg (by simp [digit]), if_neg (by simp [start]),
    op]

/-- A lexeme that fits is the first piece. -/
theorem first_lexeme {l : Lexeme} {c : Char} {s rest : Text} (front : l.text ++ rest = c :: s)
    (fits : (lexeme l).Fits rest) : first c s = (lexeme l, rest) := by
  obtain ⟨wf, ends⟩ := fits_lexeme.mp fits
  cases l with
  | operator o =>
      cases o with
      | bangEqual | equalEqual | greaterEqual | lessEqual =>
          obtain ⟨rfl, rfl⟩ := List.cons.inj front
          rfl
      | _ =>
          obtain ⟨rfl, rfl⟩ := List.cons.inj front
          exact (first_operator rfl ends.2).trans (takeOperator_of_ends ends)
  | word letters =>
      obtain ⟨d, tail, rfl, start, -⟩ := wf
      obtain ⟨rfl, rfl⟩ := List.cons.inj front
      exact (first_wordStart _ start).trans (takeWord_of_fits fits)
  | number whole fraction =>
      obtain ⟨d, tail, whole_eq⟩ := List.exists_cons_of_ne_nil wf.1.1
      have same : d = c := by
        subst whole_eq
        cases fraction <;> exact (List.cons.inj front).1
      have digit : c.isDigit := by
        rw [← same]
        exact wf.1.2 d (whole_eq ▸ List.mem_cons_self)
      rw [first_digit s digit, ← front]
      exact takeNumber_of_fits fits
  | string body =>
      obtain ⟨rfl, rfl⟩ := List.cons.inj front
      show takeString (body ++ [quoteChar] ++ rest) = _
      rw [List.append_assoc]
      exact takeString_closed rest wf

/-- **Only one piece fits**: the first piece is determined by what it is and what follows. -/
theorem first_of_fits {p : Piece} {c : Char} {s rest : Text} (front : p.text ++ rest = c :: s)
    (fits : p.Fits rest) : first c s = (p, rest) := by
  cases p with
  | lexeme l => exact first_lexeme front fits
  | blank d =>
      obtain ⟨rfl, rfl⟩ := List.cons.inj front
      exact first_blank _ fits.1
  | comment body =>
      obtain ⟨rfl, rfl⟩ := List.cons.inj front
      exact (first_comment _).trans (takeComment_of_stands fits.1)
  | stray d =>
      obtain ⟨rfl, rfl⟩ := List.cons.inj front
      exact first_stray _ fits.1
  | openString body =>
      obtain ⟨noQuote, rfl⟩ := fits.1
      obtain ⟨rfl, rfl⟩ := List.cons.inj front
      show takeString (body ++ []) = _
      rw [List.append_nil]
      exact takeString_open noQuote

end Piece

/-! ## Lists of pieces that fit -/

/-- Every piece fits before what comes after it: the later pieces, and `rest` behind them. -/
def FitBefore : List Piece → Text → Prop
  | [], _ => True
  | p :: ps, rest => p.Fits (ps.flatMap Piece.text ++ rest) ∧ FitBefore ps rest

theorem fitBefore_append {ps qs : List Piece} {rest : Text} :
    FitBefore (ps ++ qs) rest ↔
      FitBefore ps (qs.flatMap Piece.text ++ rest) ∧ FitBefore qs rest := by
  induction ps with
  | nil => simp [FitBefore]
  | cons p ps ih =>
      show p.Fits ((ps ++ qs).flatMap Piece.text ++ rest) ∧ FitBefore (ps ++ qs) rest
        ↔ (p.Fits _ ∧ FitBefore ps _) ∧ _
      rw [ih, List.flatMap_append, List.append_assoc, and_assoc]

/-- The piece at any place fits before what follows it. -/
theorem FitBefore.fits {before after : List Piece} {p : Piece} {rest : Text}
    (h : FitBefore (before ++ p :: after) rest) : p.Fits (after.flatMap Piece.text ++ rest) :=
  (fitBefore_append.mp h).2.1

theorem fitBefore_pieces (s : Text) : FitBefore (pieces s) [] := by
  -- the rest that the first piece leaves is no part of `s`, only shorter
  induction h : s.length using Nat.strongRecOn generalizing s with
  | ind n ih =>
      cases s with
      | nil => rw [pieces_nil]; trivial
      | cons c s =>
          rw [pieces_cons]
          refine ⟨?_, ih _ (h ▸ Piece.length_first_lt c s) _ rfl⟩
          rw [flatMap_text_pieces, List.append_nil]
          exact Piece.fits_first c s

/-- Every piece of a text fits where it stands. -/
theorem exists_fits_of_mem_pieces {s : Text} {p : Piece} (mem : p ∈ pieces s) :
    ∃ rest, p.Fits rest := by
  obtain ⟨before, after, cut⟩ := List.append_of_mem mem
  have fit := fitBefore_pieces s
  rw [cut] at fit
  exact ⟨_, fit.fits⟩

/-- No piece is empty. -/
theorem Piece.Fits.text_ne_nil {p : Piece} {rest : Text} (fits : p.Fits rest) : p.text ≠ [] := by
  cases p with
  | lexeme l =>
      have wf := (fits_lexeme.mp fits).1
      cases l with
      | operator o => cases o <;> exact List.cons_ne_nil _ _
      | word letters =>
          obtain ⟨c, rest, rfl, -⟩ := wf
          exact List.cons_ne_nil _ _
      | number whole fraction =>
          cases fraction with
          | none => exact wf.1.1
          | some fraction => exact List.append_ne_nil_of_left_ne_nil wf.1.1 _
      | string body => exact List.cons_ne_nil _ _
  | _ => exact List.cons_ne_nil _ _

/-- Where two pieces fit at the front of the same text, they are the same piece. -/
theorem Piece.eq_of_fits {p q : Piece} {rest rest' : Text} (fits : p.Fits rest)
    (fits' : q.Fits rest') (same : p.text ++ rest = q.text ++ rest') : p = q ∧ rest = rest' := by
  obtain ⟨c, s, front⟩ := List.exists_cons_of_ne_nil
    (List.append_ne_nil_of_left_ne_nil fits.text_ne_nil rest)
  have first := first_of_fits front fits
  rw [first_of_fits (same.symm.trans front) fits'] at first
  exact ⟨(Prod.mk.inj first).1.symm, (Prod.mk.inj first).2.symm⟩

/-- Pieces that fit and have no text are no pieces. -/
theorem FitBefore.eq_nil {ps : List Piece} {rest : Text} (h : FitBefore ps rest)
    (nothing : ps.flatMap Piece.text = []) : ps = [] := by
  cases ps with
  | nil => rfl
  | cons p ps => exact absurd (List.append_eq_nil_iff.mp nothing).1 h.1.text_ne_nil

/-- An open string is the last piece of a text. -/
theorem FitBefore.nil_of_openString {body : Text} {ps : List Piece}
    (h : FitBefore (.openString body :: ps) []) : ps = [] := by
  refine h.2.eq_nil ?_
  have nothing : ps.flatMap Piece.text ++ [] = [] := h.1.1.2
  rwa [List.append_nil] at nothing

/-- **Pieces that fit come out again**, whatever text they stand before. -/
theorem pieces_of_fitBefore {ps : List Piece} {rest : Text} (h : FitBefore ps rest) :
    pieces (ps.flatMap Piece.text ++ rest) = ps ++ pieces rest := by
  induction ps with
  | nil => rfl
  | cons p ps ih =>
      obtain ⟨fits, later⟩ := h
      -- the text is not empty since `p` is not, so `pieces` makes a step, and the step finds `p`
      obtain ⟨c, s, front⟩ := List.exists_cons_of_ne_nil
        (List.append_ne_nil_of_left_ne_nil fits.text_ne_nil (ps.flatMap Piece.text ++ rest))
      rw [List.flatMap_cons, List.append_assoc, front, pieces_cons, Piece.first_of_fits front fits,
        ih later]
      rfl

theorem pieces_blank {c : Char} (s : Text) (is_blank : isBlank c) :
    pieces (c :: s) = .blank c :: pieces s := by
  rw [pieces_cons, Piece.first_blank s is_blank]

theorem pieces_stray {c : Char} (s : Text) (nothing : StartsNothing c) :
    pieces (c :: s) = .stray c :: pieces s := by
  rw [pieces_cons, Piece.first_stray s nothing]

theorem pieces_append_of_fits {p : Piece} {rest : Text} (fits : p.Fits rest) :
    pieces (p.text ++ rest) = p :: pieces rest := by
  have fit : FitBefore [p] rest := ⟨fits, trivial⟩
  have cut := pieces_of_fitBefore fit
  rwa [List.flatMap_singleton] at cut

theorem pieces_lexeme {l : Lexeme} {rest : Text} (wf : l.WellFormed) (ends : l.EndsBefore rest) :
    pieces (l.text ++ rest) = .lexeme l :: pieces rest := by
  have fits : (Piece.lexeme l).Fits rest := Piece.fits_lexeme.mpr ⟨wf, ends⟩
  exact pieces_append_of_fits fits

theorem pieces_comment {body rest : Text} (inside_line : Text.lineEnd ∉ body)
    (ends : RunEnds (· != Text.lineEnd) rest) :
    pieces ('/' :: '/' :: (body ++ rest)) = .comment body :: pieces rest := by
  have fits : (Piece.comment body).Fits rest := Piece.fits_of_stands rfl ⟨inside_line, ends⟩
  exact pieces_append_of_fits fits

/-- The line end behind a comment is a piece of its own. -/
theorem pieces_comment_lineEnd {body : Text} (inside_line : Text.lineEnd ∉ body) (rest : Text) :
    pieces ('/' :: '/' :: (body ++ Text.lineEnd :: rest)) =
      .comment body :: .blank Text.lineEnd :: pieces rest := by
  rw [pieces_comment inside_line (.cons (by decide)), pieces_blank rest (by decide)]

/-- The cut of a text is the only list of pieces that are the text and fit. -/
theorem pieces_eq_iff {ps : List Piece} {s : Text} :
    pieces s = ps ↔ ps.flatMap Piece.text = s ∧ FitBefore ps [] := by
  constructor
  · rintro rfl
    exact ⟨flatMap_text_pieces s, fitBefore_pieces s⟩
  · rintro ⟨rfl, h⟩
    have := pieces_of_fitBefore h
    rwa [List.append_nil, pieces_nil, List.append_nil] at this

end Pseudocode

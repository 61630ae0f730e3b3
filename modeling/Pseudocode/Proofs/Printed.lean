import Mathlib.Data.List.Forall2
import Pseudocode.Command.Event
import Pseudocode.Proofs.Partition

/-!
# Printed tokens

What is printed of the tokens of a scan can be read back (`tokens_of_printed`).  This is not
clear from the looks of it: strings are printed with all blanks and line ends that they have inside,
so they may hold the very text of other tokens.  Reading from left to right, though, there is never
a choice.  A printed token consists of the name of its kind, its lexeme and its literal, with blanks
between them.

* The name of a kind is a word, and the lexeme is one of the language, so both are cut off
  by the function that cuts source text (`Lexeme.eq_of_append_blank`): a blank ends every lexeme,
  and a string goes up to its second quote.
* The lexeme decides about everything else, the literal included (`Token.Found.read`), so
  the rest of the two prints is the same again.
-/

namespace Pseudocode

/-! ## Reading lexemes -/

/-- Lexemes are read off texts: those in front of a blank are the same if the texts are. -/
theorem Lexeme.eq_of_append_blank {l l' : Lexeme} (wf : l.WellFormed) (wf' : l'.WellFormed)
    {s s' : Text} (same : l.text ++ ' ' :: s = l'.text ++ ' ' :: s') : l = l' ∧ s = s' := by
  have blank : isBlank ' ' := by decide
  have fits := Piece.fits_lexeme.mpr ⟨wf, l.endsBefore_blank s blank⟩
  have fits' := Piece.fits_lexeme.mpr ⟨wf', l'.endsBefore_blank s' blank⟩
  obtain ⟨c, rest, front⟩ := List.exists_cons_of_ne_nil
    (List.append_ne_nil_of_left_ne_nil fits.text_ne_nil (' ' :: s))
  -- the one text has one first piece, and both lexemes are that piece
  have first := Piece.first_lexeme front fits
  rw [Piece.first_lexeme (same.symm.trans front) fits'] at first
  injection first with pieces rests
  injection pieces with lexemes
  injection rests with _ rests
  exact ⟨lexemes.symm, rests.symm⟩

/-- A lexeme is not mistaken for nothing. -/
theorem Lexeme.append_blank_ne {l : Lexeme} (wf : l.WellFormed) (s s' : Text) :
    l.text ++ ' ' :: s ≠ ' ' :: s' := by
  intro same
  have blank : isBlank ' ' := by decide
  have fits := Piece.fits_lexeme.mpr ⟨wf, l.endsBefore_blank s blank⟩
  have first := Piece.first_lexeme same fits
  rw [Piece.first_blank _ blank] at first
  injection first with pieces
  exact nomatch pieces

/-! ### The names of kinds -/

theorem Kind.isWordStart_of_mem_name {k : Kind} {c : Char} (mem : c ∈ k.name) : isWordStart c := by
  have all : k.name.all isWordStart = true := by
    cases k with
    | operator o => cases o <;> decide
    | keyword k =>
        cases k with
        | typeName t => cases t <;> decide
        | _ => decide
    | _ => decide
  exact List.all_eq_true.mp all c mem

theorem Kind.name_ne_nil (k : Kind) : k.name ≠ [] := by
  intro empty
  have none : ofName? [] = none := by decide
  have named := ofName?_name k
  rw [empty, none] at named
  exact nomatch named

/-- Letters and underscores make a word. -/
theorem Lexeme.wellFormed_word {letters : Text} (nonempty : letters ≠ [])
    (starts : ∀ c ∈ letters, isWordStart c) : (word letters).WellFormed := by
  obtain ⟨c, rest, rfl⟩ := List.exists_cons_of_ne_nil nonempty
  refine ⟨c, rest, rfl, starts c List.mem_cons_self, ?_⟩
  intro d mem
  exact isWordPart_of_isWordStart (starts d (List.mem_cons_of_mem c mem))

/-- The name of a kind has the form of a word. -/
theorem Kind.wellFormed_name (k : Kind) : (Lexeme.word k.name).WellFormed :=
  Lexeme.wellFormed_word k.name_ne_nil fun _ mem => Kind.isWordStart_of_mem_name mem

theorem Kind.escape_not_mem_name (k : Kind) : Text.escape ∉ k.name := by
  intro mem
  exact absurd (isWordStart_of_mem_name mem) (by decide)

/-! ## What a scan finds -/

/-- The tokens that a scan can find are those of well-formed lexemes and the end. -/
inductive Token.Found : Token → Prop
  | lexeme {l : Lexeme} (wf : l.WellFormed) (line : Int) : Found (l.token line)
  | eof (line : Int) : Found (.eof line)

/-- Nothing but the line can tell the tokens apart. -/
structure Token.Alike (t t' : Token) : Prop where
  kind : t.kind = t'.kind
  lexeme : t.lexeme = t'.lexeme
  literal : t.literal = t'.literal

namespace Source

variable {src : Source} {t : Token}

theorem found_of_mem (mem : t ∈ src.scan.tokens) : t.Found := by
  rcases List.mem_append.mp mem with inside | last
  · obtain ⟨l, line, rfl, piece⟩ := exists_lexeme_of_mem_tokensOf inside
    obtain ⟨rest, fits⟩ := exists_fits_of_mem_pieces piece
    exact .lexeme (Piece.fits_lexeme.mp fits).1 line
  · obtain rfl := List.mem_singleton.mp last
    exact .eof _

/-- The characters of a lexeme come from the source. -/
theorem mem_text_of_mem_lexeme (mem : t ∈ src.scan.tokens) {c : Char} (inside : c ∈ t.lexeme) :
    c ∈ src.text := by
  rcases List.mem_append.mp mem with found | last
  · obtain ⟨l, line, rfl, piece⟩ := exists_lexeme_of_mem_tokensOf found
    rw [← flatMap_text_pieces src.text]
    exact List.mem_flatMap.mpr ⟨_, piece, inside⟩
  · obtain rfl := List.mem_singleton.mp last
    exact absurd inside List.not_mem_nil

end Source

/-- What is found is read off: tokens in front of a blank are alike if the texts are the same. -/
theorem Token.Found.read {t t' : Token} (found : t.Found) (found' : t'.Found) {s s' : Text}
    (same : t.lexeme ++ ' ' :: s = t'.lexeme ++ ' ' :: s') : t.Alike t' ∧ s = s' := by
  cases found with
  | lexeme wf line =>
      cases found' with
      | lexeme wf' line' =>
          obtain ⟨rfl, rest⟩ := Lexeme.eq_of_append_blank wf wf' same
          exact ⟨⟨rfl, rfl, rfl⟩, rest⟩
      | eof line' => exact absurd same (Lexeme.append_blank_ne wf s s')
  | eof line =>
      cases found' with
      | lexeme wf' line' => exact absurd same.symm (Lexeme.append_blank_ne wf' s' s)
      | eof line' => exact ⟨⟨rfl, rfl, rfl⟩, (List.cons.inj same).2⟩

/-! ## Printing -/

namespace Command

/-- What standard output shows of tokens that are echoed one by one. -/
def printed (tokens : List Token) : Text :=
  (Transcript.ofEvents (tokens.map (.echo ·.display))).stdout

theorem printed_cons (t : Token) (ts : List Token) :
    printed (t :: ts) = echoed t.display ++ printed ts :=
  rfl

/-- The literal of a token as it is printed, with the line end behind it. -/
def printedLiteral (literal : Option Literal) : Text :=
  echoed ((literal.map Literal.display).getD "null".toList)

/-- Echoing can touch nothing of a token but its literal. -/
theorem echoed_display {t : Token} (no_escape : Text.escape ∉ t.lexeme) :
    echoed t.display = t.kind.name ++ ' ' :: (t.lexeme ++ ' ' :: printedLiteral t.literal) := by
  have front : Text.escape ∉ t.kind.name ++ ' ' :: t.lexeme ++ [' '] := by
    intro mem
    rcases List.mem_append.mp mem with mem | blank
    · rcases List.mem_append.mp mem with name | mem
      · exact t.kind.escape_not_mem_name name
      · rcases List.mem_cons.mp mem with blank | lexeme
        · exact absurd blank (by decide)
        · exact no_escape lexeme
    · exact absurd blank (by decide)
  have display : t.display = (t.kind.name ++ ' ' :: t.lexeme ++ [' ']) ++
      (t.literal.map Literal.display).getD "null".toList := by
    simp [Token.display]
  rw [echoed, display, Text.withoutControlSequences_append front]
  simp [printedLiteral, echoed]

/-- One printed token is read: the two in front are alike, and the same is printed behind them. -/
theorem read_printed {t t' : Token} (found : t.Found) (found' : t'.Found)
    (no_escape : Text.escape ∉ t.lexeme) (no_escape' : Text.escape ∉ t'.lexeme) {s s' : Text}
    (same : echoed t.display ++ s = echoed t'.display ++ s') : t.Alike t' ∧ s = s' := by
  rw [echoed_display no_escape, echoed_display no_escape', List.append_assoc, List.append_assoc,
    List.cons_append, List.cons_append, List.append_assoc, List.append_assoc, List.cons_append,
    List.cons_append] at same
  -- first the name is cut off, then the lexeme, and with the lexeme the literal is known
  obtain ⟨-, behind_name⟩ :=
    Lexeme.eq_of_append_blank t.kind.wellFormed_name t'.kind.wellFormed_name same
  obtain ⟨alike, behind_lexeme⟩ := found.read found' behind_name
  rw [alike.literal] at behind_lexeme
  exact ⟨alike, List.append_cancel_left behind_lexeme⟩

theorem echoed_append_ne_nil (text s : Text) : echoed text ++ s ≠ [] := by
  rw [echoed, List.append_assoc]
  exact List.append_ne_nil_of_right_ne_nil _ (List.cons_ne_nil _ _)

theorem alike_of_printed {ts ts' : List Token}
    (found : ∀ t ∈ ts, t.Found ∧ Text.escape ∉ t.lexeme)
    (found' : ∀ t ∈ ts', t.Found ∧ Text.escape ∉ t.lexeme)
    (same : printed ts = printed ts') : List.Forall₂ Token.Alike ts ts' := by
  -- no token is printed as nothing, so the two lists end together
  induction ts generalizing ts' with
  | nil =>
      cases ts' with
      | nil => exact .nil
      | cons t' ts' => exact absurd same.symm (echoed_append_ne_nil _ _)
  | cons t ts ih =>
      cases ts' with
      | nil => exact absurd same (echoed_append_ne_nil _ _)
      | cons t' ts' =>
          obtain ⟨⟨first, no_escape⟩, later⟩ := List.forall_mem_cons.mp found
          obtain ⟨⟨first', no_escape'⟩, later'⟩ := List.forall_mem_cons.mp found'
          rw [printed_cons, printed_cons] at same
          obtain ⟨alike, rest⟩ := read_printed first first' no_escape no_escape' same
          exact .cons alike (ih later later' rest)

/-- **Printed tokens can be read back.**  If the same is printed of the tokens of two sources
    without ESC, then there are as many tokens in both, and in order they have the same kinds,
    lexemes and literals. -/
theorem tokens_of_printed {src src' : Source} (no_escape : Text.escape ∉ src.text)
    (no_escape' : Text.escape ∉ src'.text)
    (same : printed src.scan.tokens = printed src'.scan.tokens) :
    List.Forall₂ Token.Alike src.scan.tokens src'.scan.tokens := by
  refine alike_of_printed ?_ ?_ same
  · intro t mem
    refine ⟨Source.found_of_mem mem, ?_⟩
    intro inside
    exact no_escape (Source.mem_text_of_mem_lexeme mem inside)
  · intro t mem
    refine ⟨Source.found_of_mem mem, ?_⟩
    intro inside
    exact no_escape' (Source.mem_text_of_mem_lexeme mem inside)

/-- A string that looks like three printed tokens, with and without a comment in front. -/
theorem tokens_of_printed_string :
    Text.escape ∉ "\" \nNUMBER 3 3.0\nEOF  null\" 3".toList ∧
    Text.escape ∉ "// #\n\" \nNUMBER 3 3.0\nEOF  null\"3".toList ∧
    printed (Source.ofText "\" \nNUMBER 3 3.0\nEOF  null\" 3".toList []).scan.tokens =
      printed (Source.ofText "// #\n\" \nNUMBER 3 3.0\nEOF  null\"3".toList []).scan.tokens ∧
    List.Forall₂ Token.Alike
      (Source.ofText "\" \nNUMBER 3 3.0\nEOF  null\" 3".toList []).scan.tokens
      (Source.ofText "// #\n\" \nNUMBER 3 3.0\nEOF  null\"3".toList []).scan.tokens := by
  have same :
      printed (Source.ofText "\" \nNUMBER 3 3.0\nEOF  null\" 3".toList []).scan.tokens =
      printed (Source.ofText "// #\n\" \nNUMBER 3 3.0\nEOF  null\"3".toList []).scan.tokens := by
    decide +kernel
  exact ⟨by decide, by decide, same, tokens_of_printed (by decide) (by decide) same⟩

/-- With ESC it is not so: of a string that holds a control sequence a part is not printed. -/
example : printed (Source.ofText "\"\x1b[0ma\"".toList []).scan.tokens =
    printed (Source.ofText "\"a\"".toList []).scan.tokens := by
  decide +kernel

end Command

end Pseudocode

import Pseudocode.Lexeme

/-!
# Pieces

Source text falls into pieces: lexemes, the blanks and comments between them, and what cannot
be part of either. Cutting a text into pieces loses nothing: the texts of the pieces, set side
by side, are the source again (`flatMap_text_pieces`).

`Piece.first` cuts off the piece at the front of a text and `pieces` repeats it to the end. A
piece is never empty, so every step makes the rest shorter (`length_first_lt`).
-/

namespace Pseudocode

/-- A piece of source text. -/
inductive Piece where
  | lexeme (l : Lexeme)
  | blank (c : Char)
  /-- A comment is two slashes and the rest of its line. -/
  | comment (body : Text)
  /-- A character that starts no other piece. -/
  | stray (c : Char)
  /-- A quote that no later quote closes, with all that follows it. -/
  | openString (body : Text)
deriving DecidableEq

namespace Piece

/-- The source text of a piece. -/
def text : Piece → Text
  | lexeme l => l.text
  | blank c => [c]
  | comment body => '/' :: '/' :: body
  | stray c => [c]
  | openString body => quoteChar :: body

/-! ## The first piece -/

/-- Takes the string that a quote before `s` opens, up to the next quote or to the end. -/
def takeString (s : Text) : Piece × Text :=
  match s.dropWhile (· != quoteChar) with
  | [] => (openString s, [])
  | _ :: rest => (lexeme (.string (s.takeWhile (· != quoteChar))), rest)

/-- Takes the comment whose slashes stand before `s`; its line end stays. -/
def takeComment (s : Text) : Piece × Text :=
  (comment (s.takeWhile (· != Text.lineEnd)), s.dropWhile (· != Text.lineEnd))

/-- Takes the operator `o`, which stands before `s`, with an equals sign if the two make one
    operator. -/
def takeOperator (o : Operator) (s : Text) : Piece × Text :=
  match o.withEqual?, s with
  | some longer, '=' :: rest => (lexeme (.operator longer), rest)
  | _, _ => (lexeme (.operator o), s)

/-- Takes the number at the front of `s`. A point belongs to it only before a digit. -/
def takeNumber (s : Text) : Piece × Text :=
  let whole := s.takeWhile Char.isDigit
  match s.dropWhile Char.isDigit with
  | '.' :: d :: rest =>
    if d.isDigit then
      (lexeme (.number whole (some ((d :: rest).takeWhile Char.isDigit))),
        (d :: rest).dropWhile Char.isDigit)
    else (lexeme (.number whole none), '.' :: d :: rest)
  | rest => (lexeme (.number whole none), rest)

/-- Takes the word at the front of `s`. -/
def takeWord (s : Text) : Piece × Text :=
  (lexeme (.word (s.takeWhile isWordPart)), s.dropWhile isWordPart)

/-- Cuts the text `c :: s` into its first piece and the rest. -/
def first (c : Char) (s : Text) : Piece × Text :=
  if isBlank c then (blank c, s)
  else if c = quoteChar then takeString s
  else if c.isDigit then takeNumber (c :: s)
  else if isWordStart c then takeWord (c :: s)
  else
    match Operator.ofChar? c, s with
    | some .slash, '/' :: rest => takeComment rest
    | some o, _ => takeOperator o s
    | none, _ => (stray c, s)

/-! ## Nothing is lost -/

theorem text_takeString (s : Text) :
    (takeString s).1.text ++ (takeString s).2 = quoteChar :: s := by
  have cut := List.takeWhile_append_dropWhile (p := (· != quoteChar)) (l := s)
  unfold takeString
  split
  · simp [text]
  · rename_i q rest drop
    have quote : q = quoteChar := by
      have := List.head?_dropWhile_not (· != quoteChar) s
      simpa [drop] using this
    rw [drop, quote] at cut
    simpa [text, Lexeme.text] using cut

theorem text_takeComment (s : Text) :
    (takeComment s).1.text ++ (takeComment s).2 = '/' :: '/' :: s := by
  simp [takeComment, text, List.takeWhile_append_dropWhile]

theorem text_takeOperator (o : Operator) (s : Text) :
    (takeOperator o s).1.text ++ (takeOperator o s).2 = o.spelling ++ s := by
  unfold takeOperator
  split
  · rename_i longer rest h
    simp [text, Lexeme.text, Operator.spelling_of_withEqual? h]
  · rfl

theorem text_takeNumber (s : Text) :
    (takeNumber s).1.text ++ (takeNumber s).2 = s := by
  have cut := List.takeWhile_append_dropWhile (p := Char.isDigit) (l := s)
  unfold takeNumber
  split
  · rename_i d rest drop
    rw [drop] at cut
    split
    · have tail := List.takeWhile_append_dropWhile (p := Char.isDigit) (l := d :: rest)
      simpa [text, Lexeme.text, tail] using cut
    · simpa [text, Lexeme.text] using cut
  · simp [text, Lexeme.text]

theorem text_takeWord (s : Text) : (takeWord s).1.text ++ (takeWord s).2 = s :=
  List.takeWhile_append_dropWhile

theorem text_first (c : Char) (s : Text) : (first c s).1.text ++ (first c s).2 = c :: s := by
  unfold first
  split
  · rfl
  split
  · rename_i quote
    rw [text_takeString, quote]
  split
  · exact text_takeNumber _
  split
  · exact text_takeWord _
  split
  · rename_i rest h
    have := Operator.spelling_of_ofChar? h
    simp only [Operator.spelling, List.cons.injEq, and_true] at this
    rw [text_takeComment, this]
  · rename_i h _
    rw [text_takeOperator, Operator.spelling_of_ofChar? h]
    rfl
  · rfl

/-! ## Progress -/

theorem length_takeNumber_le (s : Text) :
    (takeNumber s).2.length ≤ (s.dropWhile Char.isDigit).length := by
  unfold takeNumber
  split
  · rename_i d rest drop
    split
    · have := (List.dropWhile_suffix Char.isDigit (l := d :: rest)).length_le
      simp only [drop, List.length_cons] at this ⊢
      omega
    · simp [drop]
  · simp

theorem length_takeOperator_le (o : Operator) (s : Text) :
    (takeOperator o s).2.length ≤ s.length := by
  unfold takeOperator
  split <;> simp

/-- The rest of the text is shorter than the text. -/
theorem length_first_lt (c : Char) (s : Text) : (first c s).2.length < (c :: s).length := by
  have shorter (p : Char → Bool) (t : Text) : (t.dropWhile p).length ≤ t.length :=
    (List.dropWhile_suffix p).length_le
  unfold first
  split
  · simp
  split
  · have := shorter (· != quoteChar) s
    unfold takeString
    split
    · simp
    · rename_i drop
      rw [drop] at this
      simp only [List.length_cons] at this ⊢
      omega
  split
  · rename_i digit
    have number := length_takeNumber_le (c :: s)
    have := shorter Char.isDigit s
    rw [List.dropWhile_cons_of_pos digit] at number
    simp only [List.length_cons]
    omega
  split
  · rename_i start
    have := shorter isWordPart s
    simp only [takeWord, List.dropWhile_cons_of_pos (isWordPart_of_isWordStart start),
      List.length_cons]
    omega
  split
  · rename_i rest _
    have := shorter (· != Text.lineEnd) rest
    simp only [takeComment, List.length_cons]
    omega
  · rename_i o _ _
    exact Nat.lt_succ_of_le (length_takeOperator_le o _)
  · simp

end Piece

/-! ## All pieces -/

/-- The pieces of a text, from left to right. -/
def pieces : Text → List Piece
  | [] => []
  | c :: s => (Piece.first c s).1 :: pieces (Piece.first c s).2
termination_by s => s.length
decreasing_by exact Piece.length_first_lt c s

@[simp] theorem pieces_nil : pieces [] = [] := by
  rw [pieces]

theorem pieces_cons (c : Char) (s : Text) :
    pieces (c :: s) = (Piece.first c s).1 :: pieces (Piece.first c s).2 := by
  rw [pieces]

/-- The pieces of a text are the text. -/
theorem flatMap_text_pieces (s : Text) : (pieces s).flatMap Piece.text = s := by
  induction h : s.length using Nat.strongRecOn generalizing s with
  | ind n ih =>
      cases s with
      | nil => simp
      | cons c s =>
          rw [pieces_cons, List.flatMap_cons, ih _ (h ▸ Piece.length_first_lt c s) _ rfl]
          exact Piece.text_first c s

end Pseudocode

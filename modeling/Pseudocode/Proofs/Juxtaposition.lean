import Pseudocode.Proofs.Partition

/-!
# Juxtaposition

Which lexemes can stand side by side with nothing between them?  A row of lexemes is scanned
to itself exactly if at no place in the row a lexeme merges with those behind it
(`juxtaposed_iff`), and what merges is a short list (`Lexeme.Merging`).  Two neighbours do not
always tell: a number and a point become part of a longer number only before a third lexeme,
which is a number again.  The route:

* a lexeme ends before a row of lexemes unless it merges with them, which is seen from the
  first characters of the row (`Lexeme.endsBefore_flatMap_iff`);
* hence the row is a cut that fits if nothing merges (`fitBefore_map_lexeme_iff`);
* conversely, where the lexemes that are found have the texts of the row, they leave no room
  for other pieces, so the cut of the text is the row (`eq_map_lexeme`), and it fits.  Hence
  there is nothing to show about what a scan finds behind lexemes that merge.
-/

namespace Pseudocode

/-! ## First characters -/

theorem Operator.eq_dot_of_head? {o : Operator} (h : o.spelling.head? = some '.') : o = .dot := by
  cases o with
  | dot => rfl
  | _ => exact absurd h (by decide)

theorem Operator.eq_slash_of_head? {o : Operator} (h : o.spelling.head? = some '/') :
    o = .slash := by
  cases o with
  | slash => rfl
  | _ => exact absurd h (by decide)

namespace Lexeme

/-- The lexeme can begin with the character. -/
inductive Opening : Lexeme → Char → Prop
  | operator {o : Operator} {c : Char} (spelled : o.spelling.head? = some c) :
      Opening (.operator o) c
  | word {letters : Text} {c : Char} (start : isWordStart c) : Opening (.word letters) c
  | number {whole : Text} {fraction : Option Text} {c : Char} (digit : c.isDigit) :
      Opening (.number whole fraction) c
  | string {body : Text} : Opening (.string body) quoteChar

theorem exists_opening {l : Lexeme} (wf : l.WellFormed) :
    ∃ c s, l.text = c :: s ∧ l.Opening c := by
  cases l with
  | operator o => cases o <;> exact ⟨_, _, rfl, .operator rfl⟩
  | word letters =>
      obtain ⟨c, s, rfl, start, -⟩ := wf
      exact ⟨c, s, rfl, .word start⟩
  | number whole fraction =>
      obtain ⟨⟨nonempty, digits⟩, -⟩ := wf
      obtain ⟨c, s, rfl⟩ := List.exists_cons_of_ne_nil nonempty
      have digit := digits c List.mem_cons_self
      cases fraction <;> exact ⟨c, _, rfl, .number digit⟩
  | string body => exact ⟨quoteChar, _, rfl, .string⟩

namespace Opening

variable {l : Lexeme} {c : Char}

/-- What begins an operator is no part of a word. -/
theorem isWordPart_eq_false {o : Operator} (spelled : o.spelling.head? = some c) :
    isWordPart c = false := by
  obtain ⟨o', op⟩ := Option.ne_none_iff_exists'.mp (Operator.ofChar?_of_spelling spelled)
  obtain ⟨-, -, digit, start⟩ := classes_of_ofChar? op
  rw [isWordPart, start, digit, Bool.or_false]

theorem word_or_number (h : l.Opening c) (part : isWordPart c) :
    (∃ letters, l = .word letters) ∨ ∃ whole fraction, l = .number whole fraction := by
  cases h with
  | operator spelled =>
      rw [isWordPart_eq_false spelled] at part
      exact absurd part Bool.false_ne_true
  | word _ => exact Or.inl ⟨_, rfl⟩
  | number _ => exact Or.inr ⟨_, _, rfl⟩
  | string => exact absurd part (by decide)

theorem exists_number (h : l.Opening c) (digit : c.isDigit) :
    ∃ whole fraction, l = .number whole fraction := by
  rcases h.word_or_number (isWordPart_of_isDigit digit) with ⟨letters, rfl⟩ | number
  · cases h with
    | word start =>
        rw [(classes_of_isWordStart start).2.2] at digit
        exact absurd digit Bool.false_ne_true
  · exact number

/-- Only operators begin with a sign. -/
theorem exists_operator (h : l.Opening c) (sign : isWordPart c = false ∧ c ≠ quoteChar) :
    ∃ o, l = .operator o ∧ o.spelling.head? = some c := by
  obtain ⟨noPart, noQuote⟩ := sign
  cases h with
  | operator spelled => exact ⟨_, rfl, spelled⟩
  | word start => exact absurd (isWordPart_of_isWordStart start) (Bool.eq_false_iff.mp noPart)
  | number digit => exact absurd (isWordPart_of_isDigit digit) (Bool.eq_false_iff.mp noPart)
  | string => exact absurd rfl noQuote

end Opening

/-- A row of lexemes begins with the first character of its first lexeme. -/
theorem exists_of_flatMap_eq_cons {ws : List Lexeme} (wf : ∀ w ∈ ws, w.WellFormed) {c : Char}
    {s : Text} (front : ws.flatMap text = c :: s) :
    ∃ w ws' s', ws = w :: ws' ∧ w.text = c :: s' ∧ s = s' ++ ws'.flatMap text ∧
      w.Opening c := by
  cases ws with
  | nil => exact nomatch front
  | cons w ws =>
      obtain ⟨d, s', opens, opening⟩ := exists_opening (wf w List.mem_cons_self)
      rw [List.flatMap_cons, opens] at front
      obtain ⟨rfl, rfl⟩ := List.cons.inj front
      exact ⟨w, ws, s', rfl, opens, rfl, opening⟩

/-! ## Merging -/

/-- The first lexeme of the row merges with what stands behind it: together they begin with a
    longer lexeme, or with a comment. -/
inductive Merging : List Lexeme → Prop
  | words {u v : Text} {ws : List Lexeme} : Merging (word u :: word v :: ws)
  | wordNumber {u whole : Text} {fraction : Option Text} {ws : List Lexeme} :
      Merging (word u :: number whole fraction :: ws)
  | numbers {whole whole' : Text} {fraction fraction' : Option Text} {ws : List Lexeme} :
      Merging (number whole fraction :: number whole' fraction' :: ws)
  /-- An operator that an equals sign lengthens, in front of any lexeme that begins with one. -/
  | equals {o : Operator} {w : Lexeme} {ws : List Lexeme}
      (sign : o ∈ [.bang, .equal, .less, .greater]) (front : w.text.head? = some '=') :
      Merging (operator o :: w :: ws)
  /-- Two slashes, which begin a comment. -/
  | slashes {ws : List Lexeme} : Merging (operator .slash :: operator .slash :: ws)
  /-- A point between numbers, of which the first one has no fraction yet. -/
  | point {whole whole' : Text} {fraction' : Option Text} {ws : List Lexeme} :
      Merging (number whole none :: operator .dot :: number whole' fraction' :: ws)

theorem withEqual?_ne_none_iff {o : Operator} :
    o.withEqual? ≠ none ↔ o ∈ [Operator.bang, .equal, .less, .greater] := by
  cases o <;> decide

variable {ws : List Lexeme}

theorem operator_endsBefore_iff {o : Operator} (wf : ∀ w ∈ ws, w.WellFormed) :
    (operator o).EndsBefore (ws.flatMap text) ↔ ¬ Merging (operator o :: ws) := by
  constructor
  · rintro ⟨noEquals, noSlash⟩ merging
    cases merging with
    | equals sign front =>
        refine noEquals (withEqual?_ne_none_iff.mpr sign) ?_
        rw [List.flatMap_cons, List.head?_append, front]
        rfl
    | slashes => exact noSlash rfl rfl
  · intro apart
    constructor
    · intro lengthens head
      obtain ⟨s, front⟩ := List.head?_eq_some_iff.mp head
      obtain ⟨w, ws, s', rfl, opens, -, -⟩ := exists_of_flatMap_eq_cons wf front
      exact apart (.equals (withEqual?_ne_none_iff.mp lengthens) (congrArg List.head? opens))
    · rintro rfl head
      obtain ⟨s, front⟩ := List.head?_eq_some_iff.mp head
      obtain ⟨w, ws, s', rfl, -, -, opening⟩ := exists_of_flatMap_eq_cons wf front
      obtain ⟨o, rfl, spelled⟩ := opening.exists_operator (by decide)
      obtain rfl := Operator.eq_slash_of_head? spelled
      exact apart .slashes

/-- A run ends before a row of lexemes at the first character of the row. -/
theorem exists_opening_of_runEnds {p : Char → Bool} {w : Lexeme} (wf : w.WellFormed)
    (ends : RunEnds p ((w :: ws).flatMap text)) : ∃ c, w.Opening c ∧ p c = false := by
  obtain ⟨c, s, opens, opening⟩ := exists_opening wf
  rw [List.flatMap_cons, opens] at ends
  exact ⟨c, opening, ends.head⟩

theorem word_endsBefore_iff {letters : Text} (wf : ∀ w ∈ ws, w.WellFormed) :
    (word letters).EndsBefore (ws.flatMap text) ↔ ¬ Merging (word letters :: ws) := by
  constructor
  · intro ends merging
    cases merging with
    | words =>
        obtain ⟨c, opening, noPart⟩ := exists_opening_of_runEnds (wf _ List.mem_cons_self) ends
        cases opening with
        | word start =>
            exact absurd (isWordPart_of_isWordStart start) (Bool.eq_false_iff.mp noPart)
    | wordNumber =>
        obtain ⟨c, opening, noPart⟩ := exists_opening_of_runEnds (wf _ List.mem_cons_self) ends
        cases opening with
        | number digit =>
            exact absurd (isWordPart_of_isDigit digit) (Bool.eq_false_iff.mp noPart)
  · intro apart c head
    obtain ⟨s, front⟩ := List.head?_eq_some_iff.mp head
    obtain ⟨w, ws, s', rfl, -, -, opening⟩ := exists_of_flatMap_eq_cons wf front
    refine Bool.eq_false_iff.mpr fun part => ?_
    rcases opening.word_or_number part with ⟨v, rfl⟩ | ⟨whole, fraction, rfl⟩
    · exact apart .words
    · exact apart .wordNumber

theorem number_endsBefore_iff {whole : Text} {fraction : Option Text}
    (wf : ∀ w ∈ ws, w.WellFormed) : (number whole fraction).EndsBefore (ws.flatMap text) ↔
      ¬ Merging (number whole fraction :: ws) := by
  constructor
  · rintro ⟨ends, noFraction⟩ merging
    cases merging with
    | numbers =>
        obtain ⟨c, opening, noDigit⟩ := exists_opening_of_runEnds (wf _ List.mem_cons_self) ends
        cases opening with
        | number digit => exact absurd digit (Bool.eq_false_iff.mp noDigit)
    | @point _ whole' fraction' ws =>
        have behind := wf (number whole' fraction') (List.mem_cons_of_mem _ List.mem_cons_self)
        obtain ⟨d, s, opens, opening⟩ := exists_opening behind
        have noDigit := noFraction rfl d (s ++ ws.flatMap text) (by
          rw [List.flatMap_cons, List.flatMap_cons, opens]
          rfl)
        cases opening with
        | number digit => exact absurd digit (Bool.eq_false_iff.mp noDigit)
  · intro apart
    constructor
    · intro c head
      obtain ⟨s, front⟩ := List.head?_eq_some_iff.mp head
      obtain ⟨w, ws, s', rfl, -, -, opening⟩ := exists_of_flatMap_eq_cons wf front
      refine Bool.eq_false_iff.mpr fun digit => ?_
      obtain ⟨whole', fraction', rfl⟩ := opening.exists_number digit
      exact apart .numbers
    · rintro rfl d tail front
      obtain ⟨w, ws, s', rfl, opens, behind, opening⟩ := exists_of_flatMap_eq_cons wf front
      obtain ⟨o, rfl, spelled⟩ := opening.exists_operator (by decide)
      obtain rfl := Operator.eq_dot_of_head? spelled
      -- the point is a lexeme of its own, so the digit would begin the next one
      obtain rfl : [] = s' := (List.cons.inj opens).2
      obtain ⟨w, ws, -, rfl, -, -, opening⟩ :=
        exists_of_flatMap_eq_cons (fun w mem => wf w (List.mem_cons_of_mem _ mem)) behind.symm
      refine Bool.eq_false_iff.mpr fun digit => ?_
      obtain ⟨whole', fraction', rfl⟩ := opening.exists_number digit
      exact apart .point

/-- **A lexeme ends before a row of lexemes unless it merges with them.** -/
theorem endsBefore_flatMap_iff {l : Lexeme} (wf : ∀ w ∈ ws, w.WellFormed) :
    l.EndsBefore (ws.flatMap text) ↔ ¬ Merging (l :: ws) := by
  cases l with
  | operator o => exact operator_endsBefore_iff wf
  | word letters => exact word_endsBefore_iff wf
  | number whole fraction => exact number_endsBefore_iff wf
  | string body => exact ⟨fun _ => nofun, fun _ => trivial⟩

/-- Well-formed lexemes are told apart by their texts. -/
theorem eq_of_text_eq {l l' : Lexeme} (wf : l.WellFormed) (wf' : l'.WellFormed)
    (same : l.text = l'.text) : l = l' := by
  have fits := Piece.fits_lexeme.mpr ⟨wf, l.endsBefore_nil⟩
  have fits' := Piece.fits_lexeme.mpr ⟨wf', l'.endsBefore_nil⟩
  obtain ⟨pieces, -⟩ := Piece.eq_of_fits fits fits' (congrArg (· ++ []) same)
  exact Piece.lexeme.inj pieces

theorem eq_of_map_text_eq {ws ws' : List Lexeme} (wf : ∀ w ∈ ws, w.WellFormed)
    (wf' : ∀ w ∈ ws', w.WellFormed) (same : ws.map text = ws'.map text) : ws = ws' := by
  induction ws generalizing ws' with
  | nil => exact (List.map_eq_nil_iff.mp same.symm).symm
  | cons w ws ih =>
      obtain ⟨w', ws', rfl, texts, later⟩ := List.map_eq_cons_iff.mp same.symm
      obtain ⟨here, there⟩ := List.forall_mem_cons.mp wf
      obtain ⟨here', there'⟩ := List.forall_mem_cons.mp wf'
      rw [eq_of_text_eq here here' texts.symm, ih there there' later.symm]

end Lexeme

/-! ## Rows of lexemes as cuts -/

theorem flatMap_text_map_lexeme (ws : List Lexeme) :
    (ws.map Piece.lexeme).flatMap Piece.text = ws.flatMap Lexeme.text := by
  rw [List.flatMap_map]
  rfl

/-- **A row of lexemes is a cut that fits if at no place lexemes merge.** -/
theorem fitBefore_map_lexeme_iff {ws : List Lexeme} (wf : ∀ w ∈ ws, w.WellFormed) :
    FitBefore (ws.map .lexeme) [] ↔ ∀ i, ¬ Lexeme.Merging (ws.drop i) := by
  induction ws with
  | nil =>
      constructor
      · intro _ i
        rw [List.drop_nil]
        exact nofun
      · intro _
        trivial
  | cons w ws ih =>
      obtain ⟨here, there⟩ := List.forall_mem_cons.mp wf
      have first : (Piece.lexeme w).Fits (ws.flatMap Lexeme.text) ↔
          ¬ Lexeme.Merging (w :: ws) := by
        rw [Piece.fits_lexeme, Lexeme.endsBefore_flatMap_iff there]
        exact and_iff_right here
      show (Piece.lexeme w).Fits ((ws.map Piece.lexeme).flatMap Piece.text ++ []) ∧ _ ↔ _
      rw [List.append_nil, flatMap_text_map_lexeme, first, ih there]
      constructor
      · rintro ⟨apart, later⟩ i
        cases i with
        | zero => exact apart
        | succ i => exact later i
      · intro apart
        exact ⟨apart 0, fun i => apart (i + 1)⟩

/-- The lexemes among pieces are at most all of their text. -/
theorem length_filterMap_lexeme?_le (ps : List Piece) :
    ((ps.filterMap Piece.lexeme?).flatMap Lexeme.text).length ≤
      (ps.flatMap Piece.text).length := by
  induction ps with
  | nil => exact Nat.le_refl 0
  | cons p ps ih =>
      cases p with
      | lexeme l =>
          rw [List.filterMap_cons_some (f := Piece.lexeme?) rfl, List.flatMap_cons,
            List.flatMap_cons, List.length_append, List.length_append]
          exact Nat.add_le_add_left ih l.text.length
      | _ =>
          rw [List.flatMap_cons, List.length_append]
          exact Nat.le_trans ih (Nat.le_add_left _ _)

/-- **If the lexemes among pieces are all of their text, then all pieces are lexemes**, since no
    piece is empty. -/
theorem eq_map_lexeme {ps : List Piece} (fit : FitBefore ps [])
    (all : (ps.flatMap Piece.text).length ≤
      ((ps.filterMap Piece.lexeme?).flatMap Lexeme.text).length) :
    ps = (ps.filterMap Piece.lexeme?).map .lexeme := by
  induction ps with
  | nil => rfl
  | cons p ps ih =>
      have later := length_filterMap_lexeme?_le ps
      have nonempty := List.length_pos_iff.mpr fit.1.text_ne_nil
      rw [List.flatMap_cons, List.length_append] at all
      cases p with
      | lexeme l =>
          have rest : (ps.flatMap Piece.text).length ≤
              ((ps.filterMap Piece.lexeme?).flatMap Lexeme.text).length := by
            rw [List.filterMap_cons_some (f := Piece.lexeme?) rfl, List.flatMap_cons,
              List.length_append] at all
            exact Nat.le_of_add_le_add_left all
          exact congrArg (Piece.lexeme l :: ·) (ih fit.2 rest)
      | _ =>
          rw [List.filterMap_cons_none (f := Piece.lexeme?) rfl] at all
          omega

/-! ## Scans -/

theorem wellFormed_of_mem_lexemes {s : Text} {l : Lexeme}
    (mem : l ∈ (pieces s).filterMap Piece.lexeme?) : l.WellFormed := by
  obtain ⟨p, piece, same⟩ := List.mem_filterMap.mp mem
  cases p with
  | lexeme l' =>
      obtain rfl := Option.some.inj same
      obtain ⟨rest, fits⟩ := exists_fits_of_mem_pieces piece
      exact (Piece.fits_lexeme.mp fits).1
  | _ => exact nomatch same

/-- **Lexemes side by side are scanned to themselves exactly if none of them merge.**  Write
    down well-formed lexemes with nothing between them.  The tokens of a scan, but the end
    token, have exactly these lexemes if and only if there is no place in the row at which a
    lexeme merges with those behind it. -/
theorem juxtaposed_iff {ws : List Lexeme} (wf : ∀ w ∈ ws, w.WellFormed) (file : Text) (n : Int) :
    ((Source.scan ⟨ws.flatMap Lexeme.text, file, n⟩).tokens.filter (·.kind ≠ .eof)).map
        Token.lexeme = ws.map Lexeme.text ↔
      ∀ i, ¬ Lexeme.Merging (ws.drop i) := by
  rw [Source.filter_ne_eof_tokens, map_lexeme_tokensOf, ← fitBefore_map_lexeme_iff wf]
  show ((pieces (ws.flatMap Lexeme.text)).filterMap Piece.lexeme?).map Lexeme.text = _ ↔ _
  have whole := flatMap_text_pieces (ws.flatMap Lexeme.text)
  constructor
  · intro same
    have lexemes := Lexeme.eq_of_map_text_eq (fun _ => wellFormed_of_mem_lexemes) wf same
    have fit := fitBefore_pieces (ws.flatMap Lexeme.text)
    have cut := eq_map_lexeme fit (by rw [whole, lexemes])
    rw [lexemes] at cut
    rwa [cut] at fit
  · intro fit
    have cut := pieces_eq_iff.mpr ⟨flatMap_text_map_lexeme ws, fit⟩
    rw [cut, List.filterMap_map]
    exact congrArg (List.map Lexeme.text) (List.filterMap_some)

/-- A point between two numbers: it is lost if the first number has no fraction yet, and
    then the second one is torn apart as well; else the three stand. -/
theorem juxtaposed_numbers :
    (∀ w ∈ [Lexeme.number ['1'] none, .operator .dot, .number ['2'] (some ['5'])],
      w.WellFormed) ∧
    (∀ w ∈ [Lexeme.number ['1'] (some ['5']), .operator .dot, .number ['2'] none],
      w.WellFormed) ∧
    ((Source.scan ⟨"1.2.5".toList, [], 1⟩).tokens.filter (·.kind ≠ .eof)).map Token.lexeme ≠
      [['1'], ['.'], ['2', '.', '5']] ∧
    ((Source.scan ⟨"1.5.2".toList, [], 1⟩).tokens.filter (·.kind ≠ .eof)).map Token.lexeme =
      [['1', '.', '5'], ['.'], ['2']] := by
  have merging : ∀ w ∈ [Lexeme.number ['1'] none, .operator .dot, .number ['2'] (some ['5'])],
      w.WellFormed := by
    simp [Lexeme.WellFormed]
  have apart : ∀ w ∈ [Lexeme.number ['1'] (some ['5']), .operator .dot, .number ['2'] none],
      w.WellFormed := by
    simp [Lexeme.WellFormed]
  refine ⟨merging, apart, ?_, (juxtaposed_iff apart [] 1).mpr ?_⟩
  · intro same
    exact (juxtaposed_iff merging [] 1).mp same 0 .point
  · rintro (_ | _ | _ | i) merging
    · cases merging
    · cases merging with
      | equals sign front => exact absurd sign (by decide)
    · cases merging
    · rw [List.drop_eq_nil_of_le (by simp)] at merging
      cases merging

end Pseudocode

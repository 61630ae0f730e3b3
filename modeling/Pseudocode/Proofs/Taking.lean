import Pseudocode.Proofs.Denotation
import Pseudocode.Proofs.Passing
import Pseudocode.Proofs.Placement

/-!
# Taking pieces

A reading head that is set to scan in front of a piece takes this piece: it comes to stand
behind it, and has found what the placed piece amounts to (`Head.scanToken_eq_take`).  The
route:

* the first character decides which way the scan goes, since the classes of first characters
  are disjoint (`scanToken_quote`, `scanToken_digit` and so on);
* on this way loops pass what is left of the piece, up to where it ends before the text behind
  it, and the text from the start of the lexeme on is the text of the piece
  (`Head.lexeme_passText`);
* a head diagnoses what the cursor in its place diagnoses (`Head.On.diagnose`).
-/

namespace Pseudocode

/-! ## First characters of operators -/

theorem Operator.ofChar?_eq_none {c : Char}
    (other : isBlank c ∨ c = quoteChar ∨ c.isDigit ∨ isWordStart c) :
    Operator.ofChar? c = none := by
  cases op : Operator.ofChar? c with
  | none => rfl
  | some o =>
      obtain ⟨blank, quote, digit, start⟩ := classes_of_ofChar? op
      rw [blank, digit, start] at other
      simp [quote] at other

/-- The operator that the first character of an operator spells, and whether this is the whole
    operator or an equals sign follows. -/
theorem Operator.exists_ofChar? (o : Operator) :
    ∃ c base, ofChar? c = some base ∧
      ((o = base ∧ o.spelling = [c]) ∨ (base.withEqual? = some o ∧ o.spelling = [c, '='])) := by
  cases o with
  | bangEqual => exact ⟨'!', .bang, rfl, .inr ⟨rfl, rfl⟩⟩
  | equalEqual => exact ⟨'=', .equal, rfl, .inr ⟨rfl, rfl⟩⟩
  | greaterEqual => exact ⟨'>', .greater, rfl, .inr ⟨rfl, rfl⟩⟩
  | lessEqual => exact ⟨'<', .less, rfl, .inr ⟨rfl, rfl⟩⟩
  | _ => exact ⟨_, _, rfl, .inl ⟨rfl, rfl⟩⟩

namespace Head

variable {src : Source} {h : Head} {cur : Cursor} {ps : List Piece} {c : Char} {rest : Text}
  {n : Nat}

/-! ## What a piece amounts to -/

/-- The head with more tokens and diagnostics found. -/
def found (h : Head) (tokens : List Token) (diagnostics : Diagnostics) : Head :=
  { h with tokens := h.tokens ++ tokens, diagnostics := h.diagnostics ++ diagnostics }

theorem found_nil (h : Head) : h.found [] [] = h := by
  rw [found, List.append_nil, List.append_nil]

theorem emit_eq_found (src : Source) (h : Head) (kind : Kind) (literal : Option Literal) :
    h.emit src kind literal = h.found [⟨kind, h.lexeme src, literal, h.line⟩] [] := by
  rw [emit, found, List.append_nil]

theorem report_eq_found (src : Source) (h : Head) (fault : Fault) (p : Nat) :
    h.report src fault p =
      h.found [] [⟨fault, some (h.location src p), some (h.lineText src)⟩] := by
  rw [report, found, List.append_nil]

/-- The head behind a placed piece, with what the piece amounts to. -/
def take (src : Source) (h : Head) (p : Placed) : Head :=
  (h.passText p.piece.text).found p.token?.toList (p.diagnostic? src.file).toList

/-- What is neither token nor diagnostic is passed. -/
theorem take_of_nothing {p : Placed} (no_token : p.token? = none)
    (no_diagnostic : p.diagnostic? src.file = none) : h.take src p = h.passText p.piece.text := by
  rw [take, no_token, no_diagnostic]
  exact found_nil _

theorem take_lexeme {l : Lexeme} (on : h.On src cur) (marked : h.start = h.current)
    (next : h.ahead src = l.text ++ rest) :
    h.take src ⟨.lexeme l, cur, ps⟩ = (h.passText l.text).emit src l.kind l.literal := by
  rw [emit_eq_found, lexeme_passText marked next, (on.passText next).line]
  rfl

/-! ## What the first character decides -/

theorem scanToken_of_ahead (next : h.ahead src = c :: rest) :
    h.scanToken src n =
      match Operator.ofChar? c with
      | some o => h.skip.scanOperator src n o
      | none =>
        if Text.isIn [c] separatorChars then .ok h.skip
        else if c = Text.lineEnd then .ok h.skip.newLine
        else if c = quoteChar then h.skip.scanString src n
        else if c.isDigit then h.skip.scanNumber src n
        else if isWordStart c then h.skip.scanName src n
        else .ok (h.skip.report src (.unexpectedCharacter c) h.start) := by
  rw [scanToken, advance_of_ahead next, ← isIn_digitChars, ← isIn_nameStartChars]
  show (match Operator.ofChar? c with | some o => _ | none => _) = _
  simp only [List.cons.injEq, and_true]
  rfl

theorem scanToken_operator {o : Operator} (next : h.ahead src = c :: rest)
    (op : Operator.ofChar? c = some o) : h.scanToken src n = h.skip.scanOperator src n o := by
  rw [scanToken_of_ahead next, op]

theorem scanToken_blank (next : h.ahead src = c :: rest) (blank : isBlank c) :
    h.scanToken src n = .ok (h.pass c) := by
  rw [scanToken_of_ahead next, Operator.ofChar?_eq_none (.inl blank), pass]
  by_cases ends : c = Text.lineEnd
  · subst ends
    rfl
  · show (if _ then _ else _) = _
    rw [isIn_separatorChars ends, if_pos blank, if_neg ends]

theorem scanToken_of_not_blank (next : h.ahead src = c :: rest) (blank : isBlank c = false)
    (op : Operator.ofChar? c = none) :
    h.scanToken src n =
      if c = quoteChar then h.skip.scanString src n
      else if c.isDigit then h.skip.scanNumber src n
      else if isWordStart c then h.skip.scanName src n
      else .ok (h.skip.report src (.unexpectedCharacter c) h.start) := by
  obtain ⟨separator, inside_line⟩ := isIn_separatorChars_of_not_blank blank
  rw [scanToken_of_ahead next, op]
  show (if _ then _ else _) = _
  rw [separator, if_neg Bool.false_ne_true, if_neg inside_line]

theorem scanToken_quote (next : h.ahead src = quoteChar :: rest) :
    h.scanToken src n = h.skip.scanString src n := by
  rw [scanToken_of_not_blank next (by decide) rfl, if_pos rfl]

theorem scanToken_digit (next : h.ahead src = c :: rest) (digit : c.isDigit) :
    h.scanToken src n = h.skip.scanNumber src n := by
  obtain ⟨blank, quote⟩ := classes_of_isDigit digit
  rw [scanToken_of_not_blank next blank (Operator.ofChar?_eq_none (.inr (.inr (.inl digit)))),
    if_neg quote, if_pos digit]

theorem scanToken_wordStart (next : h.ahead src = c :: rest) (start : isWordStart c) :
    h.scanToken src n = h.skip.scanName src n := by
  obtain ⟨blank, quote, digit⟩ := classes_of_isWordStart start
  rw [scanToken_of_not_blank next blank (Operator.ofChar?_eq_none (.inr (.inr (.inr start)))),
    if_neg quote, digit, if_neg Bool.false_ne_true, if_pos start]

theorem scanToken_stray (next : h.ahead src = c :: rest) (nothing : StartsNothing c) :
    h.scanToken src n = .ok (h.skip.report src (.unexpectedCharacter c) h.start) := by
  obtain ⟨blank, quote, digit, start, op⟩ := startsNothing_iff.mp nothing
  rw [scanToken_of_not_blank next blank op, if_neg quote, digit, if_neg Bool.false_ne_true, start,
    if_neg Bool.false_ne_true]

/-! ## Operators and comments -/

theorem matched?_eq_none (other : (h.ahead src).head? ≠ some c) : h.matched? src c = none := by
  rw [matched?, peek_eq]
  cases next : h.ahead src with
  | nil => rfl
  | cons d rest =>
      rw [next] at other
      refine if_neg fun same => other ?_
      exact congrArg some (List.singleton_inj.mp same)

theorem matched?_of_ahead (next : h.ahead src = c :: rest) : h.matched? src c = some h.skip := by
  rw [matched?, peek_eq, next]
  exact if_pos rfl

theorem scanOperator_of_ends {o : Operator}
    (ends : (Lexeme.operator o).EndsBefore (h.ahead src)) :
    h.scanOperator src n o = .ok (h.emit src (.operator o) none) := by
  obtain ⟨no_equals, no_slash⟩ := ends
  cases longer : o.withEqual? with
  | some o' =>
      rw [longer] at no_equals
      have other := matched?_eq_none (no_equals (Option.some_ne_none o'))
      simp only [scanOperator, longer, other]
  | none =>
      by_cases slash : o = .slash
      · have other := matched?_eq_none (no_slash slash)
        simp only [scanOperator, longer, other, if_pos slash]
      · simp only [scanOperator, longer, if_neg slash]

theorem scanOperator_longer {o longer : Operator} (with_equals : o.withEqual? = some longer)
    (next : h.ahead src = '=' :: rest) :
    h.scanOperator src n o = .ok (h.skip.emit src (.operator longer) none) := by
  simp only [scanOperator, with_equals, matched?_of_ahead next]

theorem scanOperator_comment (next : h.ahead src = '/' :: rest) :
    h.scanOperator src n .slash = (Loop.comment src).run n h.skip := by
  simp only [scanOperator, Operator.withEqual?, matched?_of_ahead next, if_true]

theorem scanToken_of_operator {o : Operator} (next : h.ahead src = o.spelling ++ rest)
    (ends : (Lexeme.operator o).EndsBefore rest) :
    h.scanToken src n = .ok ((h.passText o.spelling).emit src (.operator o) none) := by
  obtain ⟨c, base, op, spells⟩ := Operator.exists_ofChar? o
  have inside_line := (isIn_separatorChars_of_not_blank (classes_of_ofChar? op).1).2
  rcases spells with ⟨rfl, spelling⟩ | ⟨longer, spelling⟩
  · rw [spelling] at next ⊢
    have behind : h.skip.ahead src = rest := ahead_skip next
    rw [← behind] at ends
    rw [scanToken_operator next op, scanOperator_of_ends ends, passText_cons,
      pass_of_ne inside_line]
    rfl
  · rw [spelling] at next ⊢
    rw [scanToken_operator next op, scanOperator_longer longer (ahead_skip next), passText_cons,
      pass_of_ne inside_line]
    rfl

theorem scanToken_of_comment {body : Text} (stands : (Piece.comment body).Stands rest)
    (next : h.ahead src = '/' :: '/' :: (body ++ rest)) (enough : body.length ≤ n) :
    h.scanToken src n = .ok (h.passText ('/' :: '/' :: body)) := by
  obtain ⟨no_lineEnd, ends⟩ := stands
  have inside : ∀ c ∈ body, (c != Text.lineEnd) = true := fun _ => Text.bne_of_mem no_lineEnd
  have second := ahead_skip next
  rw [scanToken_operator (o := .slash) next rfl, scanOperator_comment second,
    (Loop.passes_comment src).run (ahead_skip second) inside ends enough]
  rfl

/-! ## Strings -/

theorem run_string {body : Text} (no_quote : quoteChar ∉ body)
    (ends : RunEnds (· != quoteChar) rest) (next : h.ahead src = body ++ rest)
    (enough : body.length ≤ n) : (Loop.string src).run n h = .ok (h.passText body) :=
  (Loop.passes_string src).run next (fun _ => Text.bne_of_mem no_quote) ends enough

theorem scanToken_of_string {body : Text} (marked : h.start = h.current)
    (no_quote : quoteChar ∉ body) (next : h.ahead src = quoteChar :: (body ++ quoteChar :: rest))
    (enough : body.length ≤ n) :
    h.scanToken src n = .ok ((h.passText (quoteChar :: body ++ [quoteChar])).emit src .string
      (some (.text body))) := by
  have first := ahead_skip next
  have last := ahead_passText first
  have slice : src.text.slice (h.start + 1) ((h.skip.passText body).current) = body := by
    rw [current_passText, marked]
    exact Text.slice_of_drop first
  have start := (h.skip.passText_keeps body).1
  rw [scanToken_quote next, scanString, run_string no_quote (.cons (by decide)) first enough]
  show (if (h.skip.passText body).atEnd src then _ else _) = _
  rw [atEnd_eq_false last, if_neg Bool.false_ne_true, advance_of_ahead last]
  show Except.ok ((h.skip.passText body).skip.emit src .string (some (.text (src.text.slice
    ((h.skip.passText body).start + 1) (h.skip.passText body).current)))) = _
  rw [start]
  show Except.ok (Head.emit src _ .string (some (.text (src.text.slice (h.start + 1) _)))) = _
  rw [slice, List.cons_append, passText_cons, passText_append]
  rfl

/-! ## Numbers and names -/

/-- A loop whose first character has been taken before it, as numbers and names do. -/
theorem run_skip {l : Loop} {p : Char → Bool} {s : Text} (passes : l.Passes src p)
    (inside_line : p Text.lineEnd = false) (nonempty : s ≠ []) (inside : ∀ c ∈ s, p c)
    (ends : RunEnds p rest) (next : h.ahead src = s ++ rest) (enough : s.length ≤ n) :
    l.run n h.skip = .ok (h.passText s) := by
  obtain ⟨c, s, rfl⟩ := List.exists_cons_of_ne_nil nonempty
  obtain ⟨here, later⟩ := List.forall_mem_cons.mp inside
  rw [passes.run (ahead_skip next) later ends (Nat.le_of_succ_le enough), passText_cons,
    pass_of_ne (ne_of_class here inside_line)]

theorem pointAhead_eq_false (no_fraction : ∀ d tail, h.ahead src = '.' :: d :: tail →
    d.isDigit = false) : h.pointAhead src = false := by
  rw [pointAhead, peek_eq, peek_eq]
  cases next : h.ahead src with
  | nil => rfl
  | cons c rest =>
      cases rest with
      | nil =>
          show ([c] == ['.'] && false && _) = false
          rw [Bool.and_false]
          rfl
      | cons d tail =>
          by_cases point : c = '.'
          · subst point
            have digit := no_fraction d tail next
            rw [← isIn_digitChars] at digit
            exact digit
          · have other : ([c] == ['.']) = false := by
              rw [beq_eq_false_iff_ne, ne_eq, List.singleton_inj]
              exact point
            show (([c] == ['.']) && _ && _) = false
            rw [other]
            rfl

theorem pointAhead_of_ahead (digit : c.isDigit) (next : h.ahead src = '.' :: c :: rest) :
    h.pointAhead src = true := by
  rw [pointAhead, peek_eq, peek_eq, next]
  exact (isIn_digitChars c).trans digit

/-- When its digits have been passed, nothing is left of a number to find but its value, and the
    text that has been passed has one. -/
theorem scanNumber_of_passed {l : Lexeme} {x : Double} {g : Head} (marked : h.start = h.current)
    (next : h.ahead src = l.text ++ rest) (reads : Double.parse? l.text = some x)
    (before_point : (Loop.through src digitChars).run n h.skip = .ok g)
    (behind_point : g.passFraction src n = .ok (h.passText l.text)) :
    h.skip.scanNumber src n =
      .ok ((h.passText l.text).emit src .number (some (.number x))) := by
  rw [scanNumber, before_point]
  show (g.passFraction src n >>= fun h : Head =>
    (Literal.ofNumberText (h.lexeme src)).mapError Breakdown.refused >>= fun x =>
      .ok (h.emit src .number (some x))) = _
  rw [behind_point]
  show ((Literal.ofNumberText (Head.lexeme src _)).mapError Breakdown.refused >>= _) = _
  rw [lexeme_passText marked next, Literal.ofNumberText, reads]
  rfl

theorem scanNumber_whole {whole : Text} (fits : (Piece.lexeme (.number whole none)).Fits rest)
    (marked : h.start = h.current) (next : h.ahead src = whole ++ rest)
    (enough : whole.length ≤ n) :
    h.skip.scanNumber src n =
      .ok ((h.passText whole).emit src .number (Lexeme.number whole none).literal) := by
  obtain ⟨wf, ends, no_fraction⟩ := Piece.fits_lexeme.mp fits
  have no_point : (h.passText whole).pointAhead src = false := by
    refine pointAhead_eq_false fun d later point => ?_
    rw [ahead_passText next] at point
    exact no_fraction rfl d later point
  refine scanNumber_of_passed (l := .number whole none) marked next
    (Lexeme.parse?_text_number wf)
    (run_skip (Loop.passes_digits src) (by decide) wf.1.1 wf.1.2 ends next enough) ?_
  rw [passFraction, no_point]
  rfl

theorem scanNumber_fraction {whole fraction : Text}
    (fits : (Piece.lexeme (.number whole (some fraction))).Fits rest)
    (marked : h.start = h.current) (next : h.ahead src = whole ++ '.' :: (fraction ++ rest))
    (enough : (whole ++ '.' :: fraction).length ≤ n) :
    h.skip.scanNumber src n = .ok ((h.passText (whole ++ '.' :: fraction)).emit src .number
      (Lexeme.number whole (some fraction)).literal) := by
  obtain ⟨wf, ends, -⟩ := Piece.fits_lexeme.mp fits
  obtain ⟨nonempty, digits⟩ := wf.2 fraction rfl
  obtain ⟨d, later, split⟩ := List.exists_cons_of_ne_nil nonempty
  rw [List.length_append, List.length_cons] at enough
  have point := ahead_passText next
  have point_ahead : (h.passText whole).pointAhead src = true := by
    rw [split] at point
    exact pointAhead_of_ahead (digits d (split ▸ List.mem_cons_self)) point
  refine scanNumber_of_passed (l := .number whole (some fraction)) marked
    (next.trans (List.append_assoc whole ('.' :: fraction) rest).symm)
    (Lexeme.parse?_text_number wf)
    (run_skip (Loop.passes_digits src) (by decide) wf.1.1 wf.1.2 (.cons (by decide)) next
      (by omega)) ?_
  rw [passFraction, if_pos point_ahead,
    (Loop.passes_digits src).run (ahead_skip point) digits ends (by omega)]
  show _ = Except.ok (h.passText (whole ++ '.' :: fraction))
  rw [passText_append]
  rfl

theorem scanToken_of_number {whole : Text} {fraction : Option Text}
    (fits : (Piece.lexeme (.number whole fraction)).Fits rest) (marked : h.start = h.current)
    (next : h.ahead src = (Lexeme.number whole fraction).text ++ rest)
    (enough : (Lexeme.number whole fraction).text.length ≤ n) :
    h.scanToken src n = .ok ((h.passText (Lexeme.number whole fraction).text).emit src .number
      (Lexeme.number whole fraction).literal) := by
  have wf := (Piece.fits_lexeme.mp fits).1
  obtain ⟨c, tail, split⟩ := List.exists_cons_of_ne_nil wf.1.1
  have digit : c.isDigit := wf.1.2 c (split ▸ List.mem_cons_self)
  cases fraction with
  | none =>
      have first : h.ahead src = c :: (tail ++ rest) := by
        rw [next, Lexeme.text, split]
        rfl
      exact (scanToken_digit first digit).trans (scanNumber_whole fits marked next enough)
  | some fraction =>
      have next := next.trans (List.append_assoc whole ('.' :: fraction) rest)
      have first : h.ahead src = c :: (tail ++ '.' :: (fraction ++ rest)) := by
        rw [next, split]
        rfl
      exact (scanToken_digit first digit).trans (scanNumber_fraction fits marked next enough)

theorem scanToken_of_word {letters : Text}
    (fits : (Piece.lexeme (.word letters)).Fits rest) (marked : h.start = h.current)
    (next : h.ahead src = letters ++ rest) (enough : letters.length ≤ n) :
    h.scanToken src n = .ok ((h.passText letters).emit src (.ofWord letters) none) := by
  obtain ⟨wf, ends⟩ := Piece.fits_lexeme.mp fits
  obtain ⟨c, tail, split, start, -⟩ := wf
  have nonempty : letters ≠ [] := split ▸ List.cons_ne_nil c tail
  have first : h.ahead src = c :: (tail ++ rest) := by
    rw [next, split]
    rfl
  rw [scanToken_wordStart first start, scanName, run_skip (Loop.passes_nameParts src) (by decide)
    nonempty (Piece.fits_lexeme.mp fits).1.forall_isWordPart ends next enough]
  show Except.ok (Head.emit src _ (.ofWord (Head.lexeme src _)) none) = _
  rw [lexeme_passText marked next]

/-! ## Diagnostics -/

/-- A head that stands where the cursor stands diagnoses what the cursor diagnoses. -/
theorem On.diagnose (on : h.On src cur) (following : h.ahead src = ps.flatMap Piece.text)
    (fault : Fault) :
    (⟨fault, some (h.location src h.current), some (h.lineText src)⟩ : Diagnostic) =
      cur.diagnose src.file fault (lineRest ps) := by
  rw [on.location, on.lineText, following, ← lineRest_eq]
  rfl

theorem take_stray (nothing : StartsNothing c) (on : h.On src cur) (marked : h.start = h.current)
    (next : h.ahead src = c :: ps.flatMap Piece.text) :
    h.take src ⟨.stray c, cur, ps⟩ = h.skip.report src (.unexpectedCharacter c) h.start := by
  have following : h.ahead src = (Piece.stray c :: ps).flatMap Piece.text := next
  have diagnosed := on.diagnose following (.unexpectedCharacter c)
  have passed : h.passText [c] = h.skip :=
    pass_of_ne (isIn_separatorChars_of_not_blank nothing.1).2
  show (h.passText [c]).found [] [_] = _
  rw [passed, report_eq_found, marked, ← diagnosed]
  rfl

theorem take_openString {body : Text} (on : h.On src cur)
    (next : h.ahead src = (Piece.openString body).text ++ ps.flatMap Piece.text) :
    h.take src ⟨.openString body, cur, ps⟩ =
      (h.passText (quoteChar :: body)).report src .unterminatedString
        (h.passText (quoteChar :: body)).current := by
  have diagnosed := (on.passText next).diagnose (ahead_passText next) .unterminatedString
  show (h.passText (Piece.openString body).text).found []
    [(cur.advance (Piece.openString body).text).diagnose src.file _ (lineRest ps)] = _
  rw [← diagnosed, report_eq_found]
  rfl

theorem scanToken_of_openString {body : Text} (no_quote : quoteChar ∉ body)
    (next : h.ahead src = quoteChar :: body) (enough : body.length ≤ n) :
    h.scanToken src n = .ok ((h.passText (quoteChar :: body)).report src .unterminatedString
      (h.passText (quoteChar :: body)).current) := by
  have first : h.skip.ahead src = body ++ [] := (ahead_skip next).trans (List.append_nil _).symm
  have ended : (h.skip.passText body).atEnd src = true := atEnd_iff.mpr (ahead_passText first)
  rw [scanToken_quote next, scanString, run_string no_quote .nil first enough]
  show (if (h.skip.passText body).atEnd src then _ else _) = _
  rw [if_pos ended]
  rfl

/-! ## Every piece -/

theorem scanToken_of_lexeme {l : Lexeme} (fits : (Piece.lexeme l).Fits rest)
    (marked : h.start = h.current) (next : h.ahead src = l.text ++ rest)
    (enough : l.text.length ≤ n) :
    h.scanToken src n = .ok ((h.passText l.text).emit src l.kind l.literal) := by
  cases l with
  | operator o => exact scanToken_of_operator next (Piece.fits_lexeme.mp fits).2
  | word letters => exact scanToken_of_word fits marked next enough
  | number whole fraction => exact scanToken_of_number fits marked next enough
  | string body =>
      have no_quote := (Piece.fits_lexeme.mp fits).1
      have split : (Lexeme.string body).text ++ rest =
          quoteChar :: (body ++ quoteChar :: rest) := by
        rw [Lexeme.text, List.cons_append, List.cons_append, List.append_assoc]
        rfl
      rw [Lexeme.text, List.length_append, List.length_cons] at enough
      exact scanToken_of_string marked no_quote (next.trans split) (by omega)

/-- **A head that is set to scan takes the piece that fits.** -/
theorem scanToken_eq_take {p : Piece} (fits : p.Fits (ps.flatMap Piece.text))
    (on : h.On src cur) (marked : h.start = h.current)
    (next : h.ahead src = p.text ++ ps.flatMap Piece.text) (enough : p.text.length ≤ n) :
    h.scanToken src n = .ok (h.take src ⟨p, cur, ps⟩) := by
  cases p with
  | lexeme l => rw [scanToken_of_lexeme fits marked next enough, take_lexeme on marked next]
  | blank c =>
      rw [scanToken_blank next fits.1, take_of_nothing rfl rfl]
      rfl
  | comment body =>
      have short : body.length ≤ n := Nat.le_of_succ_le (Nat.le_of_succ_le enough)
      rw [scanToken_of_comment fits.1 next short, take_of_nothing rfl rfl]
      rfl
  | stray c => rw [scanToken_stray next fits.1, take_stray fits.1 on marked next]
  | openString body =>
      obtain ⟨no_quote, last⟩ := fits.1
      rw [take_openString on next]
      rw [last, List.append_nil] at next
      exact scanToken_of_openString no_quote next (Nat.le_of_succ_le enough)

end Head

end Pseudocode

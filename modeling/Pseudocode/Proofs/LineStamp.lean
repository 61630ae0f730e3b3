import Mathlib.Data.List.Forall2
import Pseudocode.Proofs.Partition
import Pseudocode.Proofs.Position

/-!
# Line stamps

Every token carries the line on which its lexeme ends, counted over the text as a whole:
the line of the source and as many more as there are line ends in front of the end of
the lexeme (`tokens_stamped`).  Where a lexeme stands is its *extent*, the offsets of its
first character and of the character behind its last one.  The route:

* `forall₂_extentsFrom`: tokens and extents go in step, by induction on the pieces, with the
  text in front of them counted by the cursor; and each token is stamped as its extent says
  (`stamped_token`);
* a lexeme without a line end starts on the line that it ends on, and only strings have
  line ends inside (`Lexeme.lineEnd_not_mem_text`);
* extents do not overlap (`pairwise_extentsFrom`), so lines never decrease.
-/

namespace Pseudocode

/-! ## Extents -/

/-- Where a lexeme stands in a text: from the offset `start` up to the offset `stop`, which is
    the first one behind it. -/
structure Extent where
  start : Nat
  stop : Nat

/-- The extents of the lexemes among pieces of which the first starts at the offset. -/
def extentsFrom (p : Nat) : List Piece → List Extent
  | [] => []
  | q :: qs =>
    (q.lexeme?.map fun l => ⟨p, p + l.text.length⟩).toList ++ extentsFrom (p + q.text.length) qs

theorem mem_extentsFrom_cons {p : Nat} {q : Piece} {qs : List Piece} {x : Extent}
    (mem : x ∈ extentsFrom p (q :: qs)) :
    (∃ l, q = .lexeme l ∧ x = ⟨p, p + q.text.length⟩) ∨ x ∈ extentsFrom (p + q.text.length) qs := by
  rcases List.mem_append.mp mem with here | there
  · cases q with
    | lexeme l =>
        obtain rfl := Option.mem_some.mp (Option.mem_toList.mp here)
        exact Or.inl ⟨l, rfl, rfl⟩
    | _ => exact absurd here List.not_mem_nil
  · exact Or.inr there

theorem bounds_of_mem_extentsFrom {p : Nat} {ps : List Piece} {x : Extent}
    (mem : x ∈ extentsFrom p ps) : p ≤ x.start ∧ x.start ≤ x.stop := by
  induction ps generalizing p with
  | nil => exact absurd mem List.not_mem_nil
  | cons q qs ih =>
      rcases mem_extentsFrom_cons mem with ⟨l, -, rfl⟩ | there
      · exact ⟨Nat.le_refl p, Nat.le_add_right p _⟩
      · have := ih there
        omega

/-- Extents do not overlap, and they come in the order of the text. -/
theorem pairwise_extentsFrom (p : Nat) (ps : List Piece) :
    (extentsFrom p ps).Pairwise (·.stop ≤ ·.start) := by
  induction ps generalizing p with
  | nil => exact .nil
  | cons q qs ih =>
      have later : ∀ y ∈ extentsFrom (p + q.text.length) qs, p + q.text.length ≤ y.start :=
        fun y mem => (bounds_of_mem_extentsFrom mem).1
      cases q with
      | lexeme l => exact List.pairwise_cons.mpr ⟨later, ih _⟩
      | _ => exact ih _

theorem extentsFrom_append (p : Nat) (ps qs : List Piece) :
    extentsFrom p (ps ++ qs) =
      extentsFrom p ps ++ extentsFrom (p + (ps.flatMap Piece.text).length) qs := by
  induction ps generalizing p with
  | nil => rfl
  | cons q ps ih =>
      show _ ++ extentsFrom _ (ps ++ qs) = _
      rw [ih, List.flatMap_cons, List.length_append, ← Nat.add_assoc, ← List.append_assoc]
      rfl

/-- There are as many extents as tokens. -/
theorem length_extentsFrom (cur : Cursor) (p : Nat) (ps : List Piece) :
    (extentsFrom p ps).length = (tokensOf cur ps).length := by
  induction ps generalizing cur p with
  | nil => rfl
  | cons q ps ih =>
      have later := ih (cur.advance q.text) (p + q.text.length)
      cases q with
      | lexeme l => exact congrArg (· + 1) later
      | _ => exact later

/-! ## Lexemes and line ends -/

theorem Kind.ofWord_ne_string (letters : Text) : Kind.ofWord letters ≠ .string := by
  unfold ofWord
  cases Keyword.ofText? letters with
  | none => exact nofun
  | some k => exact nofun

/-- Only strings have line ends inside. -/
theorem Lexeme.lineEnd_not_mem_text {l : Lexeme} (wf : l.WellFormed) (other : l.kind ≠ .string) :
    Text.lineEnd ∉ l.text := by
  intro mem
  cases l with
  | operator o => cases o <;> exact absurd mem (by decide)
  | word letters =>
      obtain ⟨c, rest, rfl, start, parts⟩ := wf
      rcases List.mem_cons.mp mem with rfl | mem
      · exact absurd start (by decide)
      · exact absurd (parts _ mem) (by decide)
  | number whole fraction =>
      obtain ⟨⟨-, digits⟩, behindPoint⟩ := wf
      cases fraction with
      | none => exact absurd (digits _ mem) (by decide)
      | some fraction =>
          rcases List.mem_append.mp mem with front | mem
          · exact absurd (digits _ front) (by decide)
          rcases List.mem_cons.mp mem with point | behind
          · exact absurd point (by decide)
          · exact absurd ((behindPoint fraction rfl).2 _ behind) (by decide)
  | string body => exact other rfl

/-- A string ends with its closing quote. -/
theorem Lexeme.exists_text_of_string {l : Lexeme} (string : l.kind = .string) :
    ∃ front, l.text = front ++ [quoteChar] := by
  cases l with
  | operator o => exact nomatch string
  | word letters => exact absurd string (Kind.ofWord_ne_string letters)
  | number whole fraction => exact nomatch string
  | string body => exact ⟨quoteChar :: body, rfl⟩

/-! ## Stamped tokens -/

/-- The token is that of the text in the extent, and carries the line on which this text
    ends. -/
structure Token.Stamped (src : Source) (t : Token) (x : Extent) : Prop where
  inside : x.start < x.stop ∧ x.stop ≤ src.text.length
  lexeme : t.lexeme = (src.text.take x.stop).drop x.start
  line : t.line = src.line + src.text.lineIndex x.stop
  /-- Every token but a string is on one line. -/
  one_line : t.kind ≠ .string → src.text.lineIndex x.start = src.text.lineIndex x.stop
  /-- The line of a string is that of its closing quote. -/
  closing : t.kind = .string → ∃ q, q + 1 = x.stop ∧ src.text[q]? = some quoteChar ∧
    src.text.lineIndex q = src.text.lineIndex x.stop

variable {src : Source} {before : Text} {ps : List Piece}

/-- Quotes do not count as line ends. -/
theorem count_lineEnd_append_quote (s : Text) :
    (s ++ [quoteChar]).count Text.lineEnd = s.count Text.lineEnd := by
  rw [List.count_append]
  rfl

/-- **The token of a lexeme in its place is stamped** by the cursor behind it. -/
theorem stamped_token {l : Lexeme} {rest : Text} (wf : l.WellFormed) (nonempty : l.text ≠ [])
    (split : src.text = before ++ l.text ++ rest) :
    (l.token ((Cursor.atLine src.line).advance (before ++ l.text)).line).Stamped src
      ⟨before.length, (before ++ l.text).length⟩ := by
  have start : src.text.lineIndex before.length = before.count Text.lineEnd := by
    rw [split, List.append_assoc, Text.lineIndex_append]
  have stop : src.text.lineIndex (before ++ l.text).length =
      (before ++ l.text).count Text.lineEnd := by
    rw [split, Text.lineIndex_append]
  constructor
  case inside =>
    have := List.length_pos_iff.mpr nonempty
    simp only [split, List.length_append]
    omega
  case lexeme =>
    show l.text = (src.text.take (before ++ l.text).length).drop before.length
    rw [split, List.take_left, List.drop_left]
  case line =>
    show (Cursor.advance _ _).line = src.line + src.text.lineIndex (before ++ l.text).length
    rw [Cursor.advance_atLine, stop]
  case one_line =>
    intro other
    have none := List.count_eq_zero.mpr (l.lineEnd_not_mem_text wf other)
    rw [start, stop, List.count_append, none, Nat.add_zero]
  case closing =>
    intro string
    obtain ⟨front, text⟩ := l.exists_text_of_string string
    have split' : src.text = (before ++ front) ++ quoteChar :: rest := by
      rw [split, text]
      simp
    refine ⟨(before ++ front).length, ?_, ?_, ?_⟩
    · show _ = (before ++ l.text).length
      rw [text, ← List.append_assoc]
      simp only [List.length_append, List.length_singleton]
    · rw [split', List.getElem?_append_right (Nat.le_refl _), Nat.sub_self]
      rfl
    · rw [stop, text, ← List.append_assoc, count_lineEnd_append_quote, split',
        Text.lineIndex_append]

/-- **Tokens and extents go in step**: what holds of the token and the extent of every lexeme
    that fits in the text, holds of them one by one. -/
theorem forall₂_extentsFrom {R : Token → Extent → Prop}
    (each : ∀ before l rest, src.text = before ++ l.text ++ rest → (Piece.lexeme l).Fits rest →
      R (l.token ((Cursor.atLine src.line).advance (before ++ l.text)).line)
        ⟨before.length, (before ++ l.text).length⟩)
    (fit : FitBefore ps []) (split : src.text = before ++ ps.flatMap Piece.text) :
    List.Forall₂ R (tokensOf ((Cursor.atLine src.line).advance before) ps)
      (extentsFrom before.length ps) := by
  -- what is behind the cursor grows with every piece, what is before it is used up
  induction ps generalizing before with
  | nil => exact .nil
  | cons p ps ih =>
      obtain ⟨fits, behind⟩ := fit
      rw [List.append_nil] at fits
      rw [List.flatMap_cons, ← List.append_assoc] at split
      have later := ih behind split
      rw [Cursor.advance_append, List.length_append] at later
      cases p with
      | lexeme l =>
          have here := each before l _ split fits
          rw [Cursor.advance_append, List.length_append] at here
          exact .cons here later
      | _ => exact later

theorem Source.forall₂_extents {R : Token → Extent → Prop}
    (each : ∀ before l rest, src.text = before ++ l.text ++ rest → (Piece.lexeme l).Fits rest →
      R (l.token ((Cursor.atLine src.line).advance (before ++ l.text)).line)
        ⟨before.length, (before ++ l.text).length⟩) :
    List.Forall₂ R (tokensOf (.atLine src.line) (pieces src.text))
      (extentsFrom 0 (pieces src.text)) :=
  @forall₂_extentsFrom src [] _ R each (fitBefore_pieces src.text) (flatMap_text_pieces _).symm

/-! ## Lines grow -/

theorem Text.lineIndex_le (s : Text) {p q : Nat} (le : p ≤ q) : s.lineIndex p ≤ s.lineIndex q :=
  (List.take_sublist_take_left le).count_le lineEnd

theorem Text.lineIndex_le_count (s : Text) (p : Nat) : s.lineIndex p ≤ s.count lineEnd :=
  (List.take_sublist p s).count_le lineEnd

theorem Source.forall₂_stamped (src : Source) :
    List.Forall₂ (Token.Stamped src) (tokensOf (.atLine src.line) (pieces src.text))
      (extentsFrom 0 (pieces src.text)) := by
  refine forall₂_extents fun before l rest split fits => ?_
  exact stamped_token (Piece.fits_lexeme.mp fits).1 fits.text_ne_nil split

theorem Source.line_stop (src : Source) :
    src.stop.line = src.line + src.text.count Text.lineEnd := by
  rw [stop, Cursor.advance_atLine]

/-- The lines of tokens are those on which their extents end. -/
theorem Source.map_line_tokensOf (src : Source) :
    (tokensOf (.atLine src.line) (pieces src.text)).map Token.line =
      (extentsFrom 0 (pieces src.text)).map fun x => src.line + src.text.lineIndex x.stop := by
  have step := src.forall₂_stamped.imp fun _ _ stamped => stamped.line
  rw [← List.forall₂_map_right_iff, ← List.forall₂_map_left_iff] at step
  rwa [List.forall₂_eq_eq_eq] at step

/-- Lines grow, since the ends of extents do. -/
theorem Source.pairwise_line_tokens (src : Source) :
    (src.scan.tokens.map Token.line).Pairwise (· ≤ ·) := by
  have tokens : src.scan.tokens.map Token.line =
      (extentsFrom 0 (pieces src.text)).map (fun x => src.line + src.text.lineIndex x.stop) ++
        [src.line + src.text.count Text.lineEnd] := by
    rw [← src.map_line_tokensOf, ← src.line_stop]
    exact List.map_append
  rw [tokens, List.pairwise_append]
  refine ⟨?_, List.pairwise_singleton _ _, ?_⟩
  · rw [List.pairwise_map]
    refine (pairwise_extentsFrom 0 _).imp_of_mem ?_
    intro x y _ mem apart
    have behind := (bounds_of_mem_extentsFrom mem).2
    have := src.text.lineIndex_le (Nat.le_trans apart behind)
    omega
  · intro line mem last isLast
    obtain ⟨x, -, rfl⟩ := List.mem_map.mp mem
    obtain rfl := List.mem_singleton.mp isLast
    have := src.text.lineIndex_le_count x.stop
    omega

/-- **Lines are stamped exactly.**  In every source, whatever its first line number is,
    1. the end token carries the line of the source and as many more as the text has line
       ends;
    2. every other token has its lexeme in an extent of the text, and carries the line of the
       source and as many more as there are line ends before the end of this extent: the line
       of the closing quote for a string, the line that it starts on for any other token;
    3. extents do not overlap and are in the order of the text;
    4. hence lines never decrease from one token to the next. -/
theorem tokens_stamped (src : Source) :
    ∃ found : List Token,
      src.scan.tokens = found ++ [.eof (src.line + src.text.count Text.lineEnd)] ∧
      (∀ t ∈ found, t.kind ≠ .eof) ∧
      List.Forall₂ (Token.Stamped src) found (extentsFrom 0 (pieces src.text)) ∧
      (extentsFrom 0 (pieces src.text)).Pairwise (·.stop ≤ ·.start) ∧
      (src.scan.tokens.map Token.line).Pairwise (· ≤ ·) := by
  refine ⟨tokensOf (.atLine src.line) (pieces src.text), ?_,
    fun _ mem => kind_ne_eof_of_mem_tokensOf mem, src.forall₂_stamped,
    pairwise_extentsFrom 0 _, src.pairwise_line_tokens⟩
  rw [← src.line_stop]
  rfl

end Pseudocode

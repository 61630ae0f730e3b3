import Mathlib.Data.List.Basic
import Pseudocode.Scan

/-!
# Placement

What a scan reads off its placed pieces, as laws on lists of pieces.  A placed piece is
a piece with the text before it folded into a cursor and the pieces behind it kept for the
excerpt of its line, so every law here is about one of the two sides:

* `lineRest_eq`: what the pieces behind it show of its line is the text up to the next
  line end;
* `tokensOf_append`, `diagnosticsOf_append`: scanning two lists of pieces set side by
  side is scanning the one and then, from where it ends, the other.  For diagnostics the
  seam must be a line end, or else the excerpts of the first list grow.
-/

namespace Pseudocode

/-- The tokens of pieces set down from the cursor on. -/
def tokensOf (cur : Cursor) (ps : List Piece) : List Token :=
  (placed cur ps).filterMap Placed.token?

/-- The diagnostics of pieces set down from the cursor on. -/
def diagnosticsOf (file : Text) (cur : Cursor) (ps : List Piece) : Diagnostics :=
  (placed cur ps).filterMap (Placed.diagnostic? file)

theorem tokensOf_cons (cur : Cursor) (p : Piece) (ps : List Piece) :
    tokensOf cur (p :: ps) =
      (⟨p, cur, ps⟩ : Placed).token?.toList ++ tokensOf (cur.advance p.text) ps := by
  show List.filterMap _ (_ :: _) = _
  rw [List.filterMap_cons]
  cases (⟨p, cur, ps⟩ : Placed).token? <;> rfl

theorem diagnosticsOf_cons (file : Text) (cur : Cursor) (p : Piece) (ps : List Piece) :
    diagnosticsOf file cur (p :: ps) =
      ((⟨p, cur, ps⟩ : Placed).diagnostic? file).toList ++
        diagnosticsOf file (cur.advance p.text) ps := by
  show List.filterMap _ (_ :: _) = _
  rw [List.filterMap_cons]
  cases (⟨p, cur, ps⟩ : Placed).diagnostic? file <;> rfl

/-! ## The rest of the line -/

/-- Text up to a character does not change with what stands behind the character. -/
theorem takeWhile_ne_append_cons (c : Char) (s t : Text) :
    (s ++ c :: t).takeWhile (· != c) = s.takeWhile (· != c) := by
  induction s with
  | nil => simp
  | cons d s ih => simp [List.takeWhile_cons, ih]

theorem takeWhile_ne_of_mem {c : Char} {s : Text} (t : Text) (h : c ∈ s) :
    (s ++ t).takeWhile (· != c) = s.takeWhile (· != c) := by
  obtain ⟨front, behind, rfl⟩ := List.append_of_mem h
  rw [List.append_assoc, List.cons_append, takeWhile_ne_append_cons, takeWhile_ne_append_cons]

/-- Pieces show of their first line what stands before its end. -/
theorem lineRest_eq (ps : List Piece) :
    lineRest ps = (ps.flatMap Piece.text).takeWhile (· != Text.lineEnd) := by
  induction ps with
  | nil => rfl
  | cons p ps ih =>
      rw [lineRest, List.flatMap_cons]
      by_cases ends : Text.lineEnd ∈ p.text
      · rw [if_pos ends, takeWhile_ne_of_mem _ ends]
      · have inside : ∀ c ∈ p.text, (c != Text.lineEnd) = true := fun _ => Text.bne_of_mem ends
        rw [if_neg ends, List.takeWhile_append_of_pos inside, ih]

/-! ## Scanning on -/

/-- The place with more pieces behind it. -/
def Placed.extend (p : Placed) (qs : List Piece) : Placed :=
  { p with following := p.following ++ qs }

theorem placed_append (cur : Cursor) (ps qs : List Piece) :
    placed cur (ps ++ qs) = (placed cur ps).map (Placed.extend · qs) ++
      placed (cur.advance (ps.flatMap Piece.text)) qs := by
  induction ps generalizing cur with
  | nil => rfl
  | cons p ps ih =>
      show (⟨p, cur, ps ++ qs⟩ : Placed) :: placed _ (ps ++ qs) = _
      rw [ih, List.flatMap_cons, Cursor.advance_append]
      rfl

/-- Tokens do not see what stands behind them. -/
theorem tokensOf_append (cur : Cursor) (ps qs : List Piece) :
    tokensOf cur (ps ++ qs) = tokensOf cur ps ++
      tokensOf (cur.advance (ps.flatMap Piece.text)) qs := by
  rw [tokensOf, placed_append, List.filterMap_append, List.filterMap_map]
  rfl

theorem Cursor.line_advance (cur : Cursor) (s : Text) :
    (cur.advance s).line = cur.line + s.count Text.lineEnd := by
  induction s generalizing cur with
  | nil => exact (Int.add_zero _).symm
  | cons c s ih =>
      rw [advance_cons, ih, step]
      by_cases ends : c = Text.lineEnd
      · subst ends
        rw [if_pos rfl, List.count_cons_self]
        show cur.line + 1 + _ = _
        omega
      · rw [if_neg ends, List.count_cons_of_ne ends]

/-- Tokens see nothing of a cursor but its line. -/
theorem tokensOf_eq_of_line {cur cur' : Cursor} (same : cur.line = cur'.line) (ps : List Piece) :
    tokensOf cur ps = tokensOf cur' ps := by
  induction ps generalizing cur cur' with
  | nil => rfl
  | cons p ps ih =>
      have behind : (cur.advance p.text).line = (cur'.advance p.text).line := by
        rw [Cursor.line_advance, Cursor.line_advance, same]
      have later := ih behind
      cases p with
      | lexeme l =>
          have token : l.token (cur.advance l.text).line = l.token (cur'.advance l.text).line :=
            congrArg l.token behind
          exact List.cons_eq_cons.mpr ⟨token, later⟩
      | _ => exact later

/-- Where tokens are cut in two, the pieces are cut in front of a lexeme. -/
theorem exists_cut_of_tokensOf {cur : Cursor} {ps : List Piece} {found later : List Token}
    {t : Token} (split : tokensOf cur ps = found ++ t :: later) :
    ∃ before l after, ps = before ++ .lexeme l :: after ∧ tokensOf cur before = found := by
  induction ps generalizing cur found with
  | nil => exact absurd split.symm (List.append_ne_nil_of_right_ne_nil _ (List.cons_ne_nil _ _))
  | cons p ps ih =>
      cases p with
      | lexeme l =>
          cases found with
          | nil => exact ⟨[], l, ps, rfl, rfl⟩
          | cons first found =>
              obtain ⟨here, there⟩ := List.cons.inj split
              obtain ⟨before, l', after, rfl, tokens⟩ := ih there
              exact ⟨.lexeme l :: before, l', after, rfl, List.cons_eq_cons.mpr ⟨here, tokens⟩⟩
      | _ =>
          obtain ⟨before, l', after, rfl, tokens⟩ := ih split
          exact ⟨_ :: before, l', after, rfl, tokens⟩

/-- What pieces show of their line does not change if more pieces follow behind a line end. -/
theorem lineRest_append {ps qs : List Piece} {rest : Text}
    (seam : qs.flatMap Piece.text = Text.lineEnd :: rest) : lineRest (ps ++ qs) = lineRest ps := by
  rw [lineRest_eq, lineRest_eq, List.flatMap_append, seam, takeWhile_ne_append_cons]

theorem diagnosticsOf_append {file : Text} {cur : Cursor} {ps qs : List Piece} {rest : Text}
    (seam : qs.flatMap Piece.text = Text.lineEnd :: rest) :
    diagnosticsOf file cur (ps ++ qs) = diagnosticsOf file cur ps ++
      diagnosticsOf file (cur.advance (ps.flatMap Piece.text)) qs := by
  rw [diagnosticsOf, placed_append, List.filterMap_append, List.filterMap_map]
  congr 1
  -- place by place, the excerpt is all that could have changed
  refine List.filterMap_congr fun p _ => ?_
  have following : lineRest (p.following ++ qs) = lineRest p.following := lineRest_append seam
  have line : lineRest (p.piece :: (p.following ++ qs)) = lineRest (p.piece :: p.following) :=
    @lineRest_append (p.piece :: p.following) qs rest seam
  cases shape : p.piece with
  | stray c =>
      rw [shape] at line
      simp only [Function.comp, Placed.diagnostic?, Placed.extend, shape, line]
  | openString body =>
      simp only [Function.comp, Placed.diagnostic?, Placed.extend, Placed.stop, shape, following]
  | _ => simp only [Function.comp, Placed.diagnostic?, Placed.extend, shape]

end Pseudocode

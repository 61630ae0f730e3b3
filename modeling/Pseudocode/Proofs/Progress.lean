import Pseudocode.Proofs.Partition
import Pseudocode.Proofs.Taking

/-!
# Progress

Scanning never breaks down and always moves on (`scan_progresses`).  A reading head comes to its
main loop in front of pieces that fit (`Head.Before`), and from there
1. one step takes the first of these pieces, which is not empty (`Head.Before.step`);
2. a run comes to the end of the text (`Head.Before.run_main`), and makes the scan of the source.

No piece amounts to more than one token or diagnostic, so pieces bound their number.
-/

namespace Pseudocode

namespace Head

variable {src : Source} {h : Head} {cur : Cursor} {ps : List Piece} {n : Nat}

/-! ## Steps and runs -/

/-- The head stands where the cursor stands, and ahead of it are the pieces. -/
structure Before (h : Head) (src : Source) (cur : Cursor) (ps : List Piece) : Prop where
  on : h.On src cur
  next : h.ahead src = ps.flatMap Piece.text
  fit : FitBefore ps []

namespace Before

variable {p : Piece} {m : Nat}

theorem atStart (src : Source) :
    (Head.atStart src).Before src (.atLine src.line) (pieces src.text) where
  on := .atStart src
  next := (flatMap_text_pieces src.text).symm
  fit := fitBefore_pieces src.text

theorem length_eq (before : h.Before src cur (p :: ps)) :
    h.current + p.text.length + (ps.flatMap Piece.text).length = src.text.length := by
  have inside := before.on.inside
  have length := congrArg List.length before.next
  rw [ahead, List.length_drop, List.flatMap_cons, List.length_append] at length
  omega

/-- In front of a piece a head takes it, and stands behind it. -/
theorem step (before : h.Before src cur (p :: ps)) (enough : src.text.length ≤ n) :
    h.mark.scanToken src n = .ok (h.mark.take src ⟨p, cur, ps⟩) ∧
    (h.mark.take src ⟨p, cur, ps⟩).Before src (cur.advance p.text) ps := by
  obtain ⟨fits, later⟩ := before.fit
  rw [List.append_nil] at fits
  have on : h.mark.On src cur := before.on.of_place rfl rfl rfl
  have next : h.mark.ahead src = p.text ++ ps.flatMap Piece.text := before.next
  have length := before.length_eq
  refine ⟨scanToken_eq_take fits on rfl next (by omega), ?_, ahead_passText next, later⟩
  exact (on.passText next).of_place rfl rfl rfl

theorem atEnd_iff (before : h.Before src cur ps) : h.atEnd src ↔ ps = [] := by
  rw [Head.atEnd_iff, before.next]
  exact ⟨before.fit.eq_nil, fun none => none ▸ rfl⟩

/-- **A head comes to the end of its source**, with no more rounds than there are characters
    ahead, and it finds what the pieces ahead amount to. -/
theorem run_main (before : h.Before src cur ps) (enough : src.text.length ≤ n)
    (rounds : (ps.flatMap Piece.text).length ≤ m) :
    ∃ h', (Loop.main src n).run m h = .ok h' ∧
      h'.line = (cur.advance (ps.flatMap Piece.text)).line ∧
      h'.tokens = h.tokens ++ tokensOf cur ps ∧
      h'.diagnostics = h.diagnostics ++ diagnosticsOf src.file cur ps := by
  induction ps generalizing h cur m with
  | nil =>
      have stops : (Loop.main src n).goesOn h = false := by
        show (!h.atEnd src) = false
        rw [before.atEnd_iff.mpr rfl]
        rfl
      refine ⟨h, ?_, before.on.line, (List.append_nil _).symm, (List.append_nil _).symm⟩
      cases m <;> rw [Loop.run, stops] <;> rfl
  | cons p ps ih =>
      have on : (Loop.main src n).goesOn h = true := by
        show (!h.atEnd src) = true
        rw [Bool.not_eq_true', Bool.eq_false_iff, ne_eq, before.atEnd_iff]
        exact List.cons_ne_nil p ps
      obtain ⟨scans, behind⟩ := before.step enough
      have progress := List.length_pos_of_ne_nil before.fit.1.text_ne_nil
      rw [List.flatMap_cons, List.length_append] at rounds
      cases m with
      | zero => omega
      | succ m =>
          have short : (ps.flatMap Piece.text).length ≤ m := by omega
          obtain ⟨h', run, line, tokens, diagnostics⟩ := ih behind short
          -- marking and passing find nothing
          obtain ⟨-, tokens', diagnostics'⟩ : _ ∧ _ = h.tokens ∧ _ = h.diagnostics :=
            h.mark.passText_keeps p.text
          refine ⟨h', ?_, ?_, ?_, ?_⟩
          · rw [Loop.run, if_pos on]
            show (h.mark.scanToken src n >>= _) = _
            rw [scans]
            exact run
          · rw [line, List.flatMap_cons, Cursor.advance_append]
          · rw [tokens, tokensOf_cons, ← List.append_assoc, ← tokens']
            rfl
          · rw [diagnostics, diagnosticsOf_cons, ← List.append_assoc, ← diagnostics']
            rfl

/-- The head has not left the text, and its line has started. -/
theorem within (before : h.Before src cur ps) :
    h.lineStart ≤ h.current ∧ h.current ≤ src.text.length :=
  ⟨before.on.current ▸ Nat.le_add_right _ _, before.on.inside⟩

/-- Within its text a head scans on, from where it is to some place further on in the text. -/
theorem exists_scanToken (before : h.Before src cur ps) (enough : src.text.length ≤ n)
    (inside : h.current < src.text.length) :
    ∃ h' cur' ps', h.mark.scanToken src n = .ok h' ∧ h'.Before src cur' ps' ∧
      h'.start = h.current ∧ h.current < h'.current := by
  cases ps with
  | nil =>
      have ended := before.atEnd_iff.mpr rfl
      exact absurd (of_decide_eq_true ended) (Nat.not_le.mpr inside)
  | cons p ps =>
      obtain ⟨scans, behind⟩ := before.step enough
      have progress := List.length_pos_of_ne_nil before.fit.1.text_ne_nil
      have current := h.mark.current_passText p.text
      refine ⟨_, _, _, scans, behind, (h.mark.passText_keeps p.text).1, ?_⟩
      show h.current < (h.mark.passText p.text).current
      rw [current]
      exact Nat.lt_add_of_pos_right progress

end Before

/-- Every head that the main loop comes to stands in front of pieces. -/
theorem exists_before_of_reaches (enough : src.text.length ≤ n)
    (reaches : (Loop.main src n).Reaches (.atStart src) h) : ∃ cur ps, h.Before src cur ps := by
  induction reaches with
  | here => exact ⟨_, _, .atStart src⟩
  | @round h h' _ on step ih =>
      obtain ⟨cur, ps, before⟩ := ih
      have inside : h.current < src.text.length := by
        rw [← Nat.not_le]
        exact of_decide_eq_false (Bool.not_eq_true' _ ▸ on)
      obtain ⟨h'', cur', ps', scans, behind, -⟩ := before.exists_scanToken enough inside
      obtain rfl := Except.ok.inj (step.symm.trans scans)
      exact ⟨cur', ps', behind⟩

theorem scan_eq (enough : src.text.length ≤ n) : Head.scan src n = .ok src.scan := by
  have before := Before.atStart src
  rw [← flatMap_text_pieces src.text] at enough
  obtain ⟨h, run, line, tokens, diagnostics⟩ :=
    before.run_main (flatMap_text_pieces src.text ▸ enough) enough
  rw [Head.scan, run]
  show Except.ok (⟨src.file, h.tokens ++ [.eof h.line], h.diagnostics⟩ : Scan) = _
  rw [line, tokens, diagnostics, flatMap_text_pieces]
  rfl

end Head

/-! ## Counts -/

/-- No piece amounts to more than one token or diagnostic. -/
theorem Placed.length_found_le (file : Text) (p : Placed) :
    p.token?.toList.length + (p.diagnostic? file).toList.length ≤ 1 := by
  obtain ⟨piece, cur, ps⟩ := p
  cases piece with
  | blank c => exact Nat.zero_le 1
  | comment body => exact Nat.zero_le 1
  | _ => exact Nat.le_refl 1

theorem FitBefore.length_found_le {ps : List Piece} {rest : Text} (fit : FitBefore ps rest)
    (file : Text) (cur : Cursor) :
    (tokensOf cur ps).length + (diagnosticsOf file cur ps).length ≤
      (ps.flatMap Piece.text).length := by
  induction ps generalizing cur with
  | nil => exact Nat.le_refl 0
  | cons p ps ih =>
      have later := ih fit.2 (cur.advance p.text)
      have here := Placed.length_found_le file ⟨p, cur, ps⟩
      have progress := List.length_pos_of_ne_nil fit.1.text_ne_nil
      rw [tokensOf_cons, diagnosticsOf_cons, List.flatMap_cons, List.length_append,
        List.length_append, List.length_append]
      omega

/-- **Scanning never breaks down and always moves on.**  For every source,
    1. a reading head with a round of each loop for each character of the text makes the scan of
       the source; it makes the same scan with more rounds;
    2. whenever it comes to its main loop it is within its text, on a line that has started.
       Unless it is at the end, it scans one piece from there, and comes to a place further on
       within the text, on a line that has started;
    3. each of its inner loops, from wherever it begins, stops at the end of the text if not
       before, with no more rounds than there are characters left;
    4. there are no more tokens and diagnostics together than characters, the end token not
       counted. -/
theorem scan_progresses (src : Source) :
    (∀ rounds, src.text.length ≤ rounds → Head.scan src rounds = .ok src.scan) ∧
    (∀ rounds h, src.text.length ≤ rounds → (Loop.main src rounds).Reaches (.atStart src) h →
      h.lineStart ≤ h.current ∧ h.current ≤ src.text.length ∧
      (h.current < src.text.length →
        ∃ h', h.mark.scanToken src rounds = .ok h' ∧ h'.start = h.current ∧
          h.current < h'.current ∧ h'.current ≤ src.text.length ∧ h'.lineStart ≤ h'.current)) ∧
    (∀ l ∈ Loop.inner src, ∀ rounds h, h.current ≤ src.text.length →
      src.text.length - h.current ≤ rounds →
      ∃ h', l.run rounds h = .ok h' ∧ h.current ≤ h'.current ∧
        h'.current ≤ src.text.length) ∧
    (src.scan.tokens.filter (·.kind ≠ .eof)).length + src.scan.diagnostics.length ≤
      src.text.length := by
  refine ⟨fun _ => Head.scan_eq, ?_, ?_, ?_⟩
  · intro rounds h enough reaches
    obtain ⟨cur, ps, before⟩ := Head.exists_before_of_reaches enough reaches
    refine ⟨before.within.1, before.within.2, fun inside => ?_⟩
    obtain ⟨h', cur', ps', scans, behind, start, further⟩ :=
      before.exists_scanToken enough inside
    exact ⟨h', scans, start, further, behind.within.2, behind.within.1⟩
  · intro l mem rounds h inside enough
    obtain ⟨p, passes⟩ := Loop.exists_passes_of_mem_inner mem
    exact passes.exists_run inside enough
  · have counts := (fitBefore_pieces src.text).length_found_le src.file (.atLine src.line)
    rw [flatMap_text_pieces] at counts
    rw [src.filter_ne_eof_tokens]
    exact counts

/-- A comment of four characters asks its loop for two rounds, and one is not enough. -/
example :
    Head.scan (.ofText "//ab".toList defaultFile) 1 = .error .outOfRounds ∧
    Head.scan (.ofText "//ab".toList defaultFile) 2 =
      .ok (Source.ofText "//ab".toList defaultFile).scan := by
  decide +kernel

end Pseudocode

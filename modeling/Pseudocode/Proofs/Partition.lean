import Pseudocode.Proofs.Cutting
import Pseudocode.Proofs.Placement

/-!
# Partition

A scan is lossless: its source falls into pieces of five sorts, and the tokens and
diagnostics are those pieces and nothing else (`scan_partition`).  The sorts are said
without the functions that cut (`Piece.Stands`), so the theorem reads as a law on texts:
lexemes, blanks, comments up to the end of their line, single characters that could
start nothing, and at the very end perhaps one quote that nothing closes.
-/

namespace Pseudocode

/-- A cut of a text into pieces, each of which is what it says where it stands. -/
structure Partition (s : Text) (ps : List Piece) : Prop where
  /-- Set side by side the pieces are the text: nothing is lost, repeated or moved. -/
  whole : ps.flatMap Piece.text = s
  stands : ∀ before p after, ps = before ++ p :: after → p.Stands (after.flatMap Piece.text)
  /-- An open string is the very last piece. -/
  open_last : ∀ before body after, ps = before ++ .openString body :: after → after = []

/-- The fault that a piece is. -/
def Piece.fault? : Piece → Option Fault
  | stray c => some (.unexpectedCharacter c)
  | openString _ => some .unterminatedString
  | _ => none

theorem FitBefore.partition {ps : List Piece} (h : FitBefore ps []) :
    Partition (ps.flatMap Piece.text) ps where
  whole := rfl
  stands before p after split := by
    subst split
    have fits := h.fits
    rw [List.append_nil] at fits
    exact fits.1
  open_last before body after split := by
    subst split
    exact (fitBefore_append.mp h).2.nil_of_openString

theorem partition_pieces (s : Text) : Partition s (pieces s) := by
  have := (fitBefore_pieces s).partition
  rwa [flatMap_text_pieces] at this

/-! ## What the pieces amount to -/

theorem map_lexeme_tokensOf (cur : Cursor) (ps : List Piece) :
    (tokensOf cur ps).map Token.lexeme = (ps.filterMap Piece.lexeme?).map Lexeme.text := by
  induction ps generalizing cur with
  | nil => rfl
  | cons p ps ih =>
      have later := ih (cur.advance p.text)
      cases p with
      | lexeme l => exact congrArg (l.text :: ·) later
      | _ => exact later

theorem map_fault_diagnosticsOf (file : Text) (cur : Cursor) (ps : List Piece) :
    (diagnosticsOf file cur ps).map Diagnostic.fault = ps.filterMap Piece.fault? := by
  induction ps generalizing cur with
  | nil => rfl
  | cons p ps ih =>
      have later := ih (cur.advance p.text)
      cases p with
      | stray c => exact congrArg (Fault.unexpectedCharacter c :: ·) later
      | openString body => exact congrArg (Fault.unterminatedString :: ·) later
      | _ => exact later

theorem tokensOf_eq_nil {cur : Cursor} {ps : List Piece} (h : ∀ p ∈ ps, p.lexeme? = none) :
    tokensOf cur ps = [] := by
  have none : ps.filterMap Piece.lexeme? = [] := List.filterMap_eq_nil_iff.mpr h
  have texts := map_lexeme_tokensOf cur ps
  rw [none] at texts
  exact List.map_eq_nil_iff.mp texts

theorem diagnosticsOf_eq_nil {file : Text} {cur : Cursor} {ps : List Piece}
    (h : ∀ p ∈ ps, p.fault? = none) : diagnosticsOf file cur ps = [] := by
  have none : ps.filterMap Piece.fault? = [] := List.filterMap_eq_nil_iff.mpr h
  have faults := map_fault_diagnosticsOf file cur ps
  rw [none] at faults
  exact List.map_eq_nil_iff.mp faults

theorem exists_lexeme_of_mem_tokensOf {cur : Cursor} {ps : List Piece} {t : Token}
    (mem : t ∈ tokensOf cur ps) : ∃ l line, t = l.token line ∧ .lexeme l ∈ ps := by
  induction ps generalizing cur with
  | nil => exact absurd mem List.not_mem_nil
  | cons p ps ih =>
      cases p with
      | lexeme l =>
          rcases List.mem_cons.mp mem with here | there
          · exact ⟨l, _, here, List.mem_cons_self⟩
          · obtain ⟨l', line, token, later⟩ := ih there
            exact ⟨l', line, token, List.mem_cons_of_mem _ later⟩
      | _ =>
          obtain ⟨l, line, token, later⟩ := ih mem
          exact ⟨l, line, token, List.mem_cons_of_mem _ later⟩

theorem kind_ne_eof_of_mem_tokensOf {cur : Cursor} {ps : List Piece} {t : Token}
    (h : t ∈ tokensOf cur ps) : t.kind ≠ .eof := by
  obtain ⟨l, line, rfl, -⟩ := exists_lexeme_of_mem_tokensOf h
  cases l with
  | word letters =>
      show Kind.ofWord letters ≠ .eof
      unfold Kind.ofWord
      split <;> exact nofun
  | _ => exact nofun

/-- The tokens of a scan but the end token. -/
theorem Source.filter_ne_eof_tokens (src : Source) :
    src.scan.tokens.filter (·.kind ≠ .eof) = tokensOf (.atLine src.line) (pieces src.text) := by
  show (tokensOf _ (pieces src.text) ++ [Token.eof src.stop.line]).filter _ = _
  rw [List.filter_append, List.filter_eq_self.mpr, List.filter_eq_nil_iff.mpr, List.append_nil]
  · intro t last
    obtain rfl := List.mem_singleton.mp last
    exact fun other => of_decide_eq_true other rfl
  · intro t mem
    exact decide_eq_true (kind_ne_eof_of_mem_tokensOf mem)

/-- **A scan loses nothing.**  The source can be cut into pieces such that
    1. the cut is a partition of the text into lexemes, blanks, comments, stray
       characters and at the very end perhaps an open string;
    2. the tokens are one token for each lexeme, in order and with its text, and one end
       token behind them, which has no text and no literal;
    3. the diagnostics are one fault for each stray character, which it names, and for
       the open string, in order. -/
theorem scan_partition (src : Source) :
    ∃ (ps : List Piece) (found : List Token) (line : Int),
      Partition src.text ps ∧
      src.scan.tokens = found ++ [⟨.eof, [], none, line⟩] ∧
      (∀ t ∈ found, t.kind ≠ .eof) ∧
      found.map Token.lexeme = (ps.filterMap Piece.lexeme?).map Lexeme.text ∧
      src.scan.diagnostics.map Diagnostic.fault = ps.filterMap Piece.fault? :=
  ⟨pieces src.text, tokensOf (.atLine src.line) (pieces src.text), src.stop.line,
    partition_pieces src.text, rfl, fun _ mem => kind_ne_eof_of_mem_tokensOf mem,
    map_lexeme_tokensOf _ _, map_fault_diagnosticsOf _ _ _⟩

end Pseudocode

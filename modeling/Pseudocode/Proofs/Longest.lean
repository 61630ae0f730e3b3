import Pseudocode.Proofs.LineStamp
import Pseudocode.Proofs.Located
import Pseudocode.Proofs.Modes

/-!
# Longest lexemes

A scan takes at every place the longest lexeme that stands there, and it gives a character
up only if no lexeme, no comment and no blank stands there (`scan_takes_longest`).  The
language of lexemes is a set of texts (`IsLexeme`), so the theorem does not say how a lexeme
is found.  The route:

* a lexeme at the front of a text may be a part of a longer one, but then it grows into a
  piece that fits there (`Lexeme.exists_fits_of_front`);
* only one piece fits at a place, so where this piece is a lexeme, no longer lexeme stands
  there (`Lexeme.longest_of_fits`).
-/

namespace Pseudocode

/-! ## Languages of texts -/

/-- The text is a lexeme of the language. -/
def IsLexeme (w : Text) : Prop :=
  ∃ l : Lexeme, l.WellFormed ∧ l.text = w

/-- The text is a comment: two slashes, and behind them no line end. -/
def IsComment (w : Text) : Prop :=
  ∃ body : Text, Text.lineEnd ∉ body ∧ w = '/' :: '/' :: body

/-- The text is nothing but blanks. -/
def IsBlanks (w : Text) : Prop :=
  ∀ c ∈ w, isBlank c

/-- Of the texts in the language that `s` begins with, `w` is the longest one. -/
structure Longest (language : Text → Prop) (w s : Text) : Prop where
  mem : language w
  front : w <+: s
  longest : ∀ v, language v → v <+: s → v.length ≤ w.length

/-! ## Lexemes grow into pieces that fit -/

theorem Piece.exists_fits {s : Text} (nonempty : s ≠ []) :
    ∃ (p : Piece) (tail : Text), p.Fits tail ∧ p.text ++ tail = s := by
  obtain ⟨c, rest, rfl⟩ := List.exists_cons_of_ne_nil nonempty
  exact ⟨_, _, fits_first c rest, text_first c rest⟩

namespace Lexeme

/-- An operator that something could continue is a single character. -/
theorem endsBefore_or_length_spelling (o : Operator) (rest : Text) :
    (operator o).EndsBefore rest ∨ o.spelling.length = 1 := by
  cases o with
  | bangEqual | equalEqual | greaterEqual | lessEqual =>
      exact Or.inl ⟨fun lengthens => absurd rfl lengthens, nofun⟩
  | _ => exact Or.inr rfl

/-- Digits grow by all digits behind them, and by a point with the digits behind it. -/
theorem exists_fits_of_digits {whole : Text} (nonempty : whole ≠ [])
    (digits : ∀ d ∈ whole, d.isDigit) (rest : Text) :
    ∃ (p : Piece) (tail : Text), p.Fits tail ∧ p.text ++ tail = whole ++ rest ∧
      whole.length ≤ p.text.length := by
  obtain ⟨run, behind, rfl, inside, ends⟩ := RunEnds.exists_cut Char.isDigit rest
  have all : whole ++ run ≠ [] ∧ ∀ d ∈ whole ++ run, d.isDigit :=
    ⟨List.append_ne_nil_of_left_ne_nil nonempty _, List.forall_mem_append.mpr ⟨digits, inside⟩⟩
  by_cases point : ∃ d s, behind = '.' :: d :: s ∧ d.isDigit
  · obtain ⟨d, s, rfl, digit⟩ := point
    obtain ⟨run', tail, rfl, inside', ends'⟩ := RunEnds.exists_cut Char.isDigit s
    refine ⟨.lexeme (.number (whole ++ run) (some (d :: run'))), tail, ?_, ?_, ?_⟩
    · refine Piece.fits_lexeme.mpr ⟨⟨all, ?_⟩, ends', (absurd · (Option.some_ne_none _))⟩
      intro fraction mem
      rw [← Option.some.inj mem]
      exact ⟨List.cons_ne_nil d run', List.forall_mem_cons.mpr ⟨digit, inside'⟩⟩
    · simp [Piece.text, text]
    · simp only [Piece.text, text, List.length_append]
      omega
  · refine ⟨.lexeme (.number (whole ++ run) none), behind, ?_, ?_, ?_⟩
    · refine Piece.fits_lexeme.mpr ⟨⟨all, ?_⟩, ends, ?_⟩
      · intro fraction mem
        exact absurd mem (Option.not_mem_none fraction)
      · intro _ d s front
        exact Bool.eq_false_iff.mpr fun digit => point ⟨d, s, front, digit⟩
    · exact List.append_assoc whole run behind
    · simp only [Piece.text, text, List.length_append]
      omega

/-- Digits behind a point grow by all digits behind them. -/
theorem exists_fits_of_fraction {whole fraction : Text}
    (wf : (number whole (some fraction)).WellFormed) (rest : Text) :
    ∃ (p : Piece) (tail : Text), p.Fits tail ∧
      p.text ++ tail = (number whole (some fraction)).text ++ rest ∧
      (number whole (some fraction)).text.length ≤ p.text.length := by
  obtain ⟨digits, behindPoint⟩ := wf
  obtain ⟨nonempty, digits'⟩ := behindPoint fraction rfl
  obtain ⟨run, tail, rfl, inside, ends⟩ := RunEnds.exists_cut Char.isDigit rest
  refine ⟨.lexeme (.number whole (some (fraction ++ run))), tail, ?_, ?_, ?_⟩
  · refine Piece.fits_lexeme.mpr ⟨⟨digits, ?_⟩, ends, (absurd · (Option.some_ne_none _))⟩
    intro all mem
    rw [← Option.some.inj mem]
    exact ⟨List.append_ne_nil_of_left_ne_nil nonempty run,
      List.forall_mem_append.mpr ⟨digits', inside⟩⟩
  · simp [Piece.text, text]
  · simp only [Piece.text, text, List.length_append, List.length_cons]
    omega

/-- **A lexeme at the front of a text is no longer than the piece that fits there.** -/
theorem exists_fits_of_front {l : Lexeme} (wf : l.WellFormed) (rest : Text) :
    ∃ (p : Piece) (tail : Text), p.Fits tail ∧ p.text ++ tail = l.text ++ rest ∧
      l.text.length ≤ p.text.length := by
  cases l with
  | operator o =>
      rcases endsBefore_or_length_spelling o rest with ends | single
      · exact ⟨_, rest, Piece.fits_lexeme.mpr ⟨wf, ends⟩, rfl, Nat.le_refl _⟩
      · have nonempty : o.spelling ++ rest ≠ [] := by
          refine List.append_ne_nil_of_left_ne_nil ?_ rest
          exact List.ne_nil_of_length_eq_add_one single
        obtain ⟨p, tail, fits, front⟩ := Piece.exists_fits nonempty
        have := List.length_pos_iff.mpr fits.text_ne_nil
        refine ⟨p, tail, fits, front, ?_⟩
        show o.spelling.length ≤ p.text.length
        omega
  | word letters =>
      obtain ⟨c, s, rfl, start, parts⟩ := wf
      obtain ⟨run, tail, rfl, inside, ends⟩ := RunEnds.exists_cut isWordPart rest
      refine ⟨.lexeme (.word (c :: s ++ run)), tail, ?_, List.append_assoc (c :: s) run tail, ?_⟩
      · refine Piece.fits_lexeme.mpr ⟨⟨c, s ++ run, rfl, start, ?_⟩, ends⟩
        exact List.forall_mem_append.mpr ⟨parts, inside⟩
      · simp only [Piece.text, text, List.length_append]
        omega
  | number whole fraction =>
      cases fraction with
      | none => exact exists_fits_of_digits wf.1.1 wf.1.2 rest
      | some fraction => exact exists_fits_of_fraction wf rest
  | string body => exact ⟨_, rest, Piece.fits_lexeme.mpr ⟨wf, trivial⟩, rfl, Nat.le_refl _⟩

/-- **A lexeme that fits is the longest one** at its place. -/
theorem longest_of_fits {l : Lexeme} {rest : Text} (fits : (Piece.lexeme l).Fits rest) :
    Longest IsLexeme l.text (l.text ++ rest) where
  mem := ⟨l, (Piece.fits_lexeme.mp fits).1, rfl⟩
  front := List.prefix_append l.text rest
  longest := by
    rintro v ⟨l', wf, rfl⟩ ⟨rest', front⟩
    obtain ⟨p, tail, fits', same, length⟩ := exists_fits_of_front wf rest'
    -- the piece that `l'` grows into fits where `l` does
    obtain ⟨rfl, -⟩ := Piece.eq_of_fits fits' fits (same.trans front)
    exact length

/-- Where a lexeme fits there is no comment. -/
theorem no_comment_of_fits {l : Lexeme} {rest : Text} (fits : (Piece.lexeme l).Fits rest) :
    ¬ ['/', '/'] <+: l.text ++ rest := by
  rintro ⟨s, front⟩
  have first := (Piece.first_comment s).symm.trans (Piece.first_of_fits front.symm fits)
  exact nomatch (Prod.mk.inj first).1

end Lexeme

/-- Nothing that the language knows begins with a character that starts nothing. -/
theorem StartsNothing.unknown {c : Char} (nothing : StartsNothing c) {w s : Text}
    (nonempty : w ≠ []) (front : w <+: c :: s) :
    ¬ IsLexeme w ∧ ¬ IsComment w ∧ ¬ IsBlanks w := by
  obtain ⟨d, v, rfl⟩ := List.exists_cons_of_ne_nil nonempty
  obtain ⟨rfl, -⟩ := List.cons_prefix_cons.mp front
  refine ⟨?_, ?_, ?_⟩
  · rintro ⟨l, wf, text⟩
    exact nothing.2 l wf (congrArg List.head? text)
  · rintro ⟨body, -, same⟩
    -- a slash is an operator already
    refine nothing.2 (.operator .slash) trivial ?_
    rw [(List.cons.inj same).1]
    rfl
  · intro blanks
    exact Bool.eq_false_iff.mp nothing.1 (blanks d List.mem_cons_self)

/-! ## Scans -/

/-- The token takes its extent of the source, and it takes as much as it can: its lexeme is the
    longest one that begins there, and no comment begins there. -/
structure Token.Greedy (src : Source) (t : Token) (x : Extent) : Prop where
  extent : x.start + t.lexeme.length = x.stop ∧ x.stop ≤ src.text.length
  longest : Longest IsLexeme t.lexeme (src.text.drop x.start)
  no_comment : ¬ ['/', '/'] <+: src.text.drop x.start

theorem greedy_token {src : Source} {before rest : Text} {l : Lexeme} (line : Int)
    (split : src.text = before ++ l.text ++ rest) (fits : (Piece.lexeme l).Fits rest) :
    (l.token line).Greedy src ⟨before.length, (before ++ l.text).length⟩ := by
  have behind : src.text.drop before.length = l.text ++ rest := by
    rw [split, List.append_assoc, List.drop_left]
  constructor
  case extent =>
    refine ⟨List.length_append.symm, ?_⟩
    rw [split]
    exact (List.prefix_append _ rest).length_le
  case longest =>
    show Longest IsLexeme l.text (src.text.drop before.length)
    rw [behind]
    exact Lexeme.longest_of_fits fits
  case no_comment =>
    show ¬ ['/', '/'] <+: src.text.drop before.length
    rw [behind]
    exact Lexeme.no_comment_of_fits fits

theorem Source.startsNothing_of_mem {src : Source} {d : Diagnostic} {c : Char}
    (mem : d ∈ src.scan.diagnostics) (fault : d.fault = .unexpectedCharacter c) :
    StartsNothing c := by
  obtain ⟨p, piece, same⟩ := exists_fault?_of_mem mem
  rw [fault] at same
  cases p with
  | stray c' =>
      obtain rfl := Fault.unexpectedCharacter.inj (Option.some.inj same)
      obtain ⟨rest, fits⟩ := exists_fits_of_mem_pieces piece
      exact fits.1
  | _ => exact nomatch same

/-- A reported character has an offset, at which the text has it. -/
theorem Source.exists_offset_of_mem {src : Source} {d : Diagnostic} {c : Char}
    (mem : d ∈ src.scan.diagnostics) (fault : d.fault = .unexpectedCharacter c) :
    ∃ p, d = src.diagnosticAt p (.unexpectedCharacter c) ∧ ∃ s, src.text.drop p = c :: s := by
  rw [src.diagnostics_eq_map_marks] at mem
  obtain ⟨m, marked, rfl⟩ := List.mem_map.mp mem
  cases on_of_mem_marks marked with
  | @character p c' at_offset _ =>
      obtain rfl := Fault.unexpectedCharacter.inj fault
      obtain ⟨inside, rfl⟩ := List.getElem?_eq_some_iff.mp at_offset
      exact ⟨p, rfl, _, List.drop_eq_getElem_cons inside⟩
  | behind => exact nomatch fault

/-- **A scan takes the longest lexeme.**  In every source
    1. each token but the end token has an extent, and its lexeme is the longest lexeme of the
       language that the source begins with there, where no comment begins;
    2. each character that is reported as unexpected has an offset, and nothing that the
       source begins with there is a lexeme, a comment or a run of blanks. -/
theorem scan_takes_longest (src : Source) :
    (∃ found : List Token, src.scan.tokens = found ++ [.eof src.stop.line] ∧
      (∀ t ∈ found, t.kind ≠ .eof) ∧
      List.Forall₂ (Token.Greedy src) found (extentsFrom 0 (pieces src.text))) ∧
    ∀ d ∈ src.scan.diagnostics, ∀ c, d.fault = .unexpectedCharacter c →
      ∃ p, d = src.diagnosticAt p (.unexpectedCharacter c) ∧ src.text[p]? = some c ∧
        ∀ w, w ≠ [] → w <+: src.text.drop p → ¬ IsLexeme w ∧ ¬ IsComment w ∧ ¬ IsBlanks w := by
  constructor
  · refine ⟨tokensOf (.atLine src.line) (pieces src.text), rfl,
      fun _ mem => kind_ne_eof_of_mem_tokensOf mem, ?_⟩
    exact Source.forall₂_extents fun before l rest split fits => greedy_token _ split fits
  · intro d mem c fault
    obtain ⟨p, at_offset, s, behind⟩ := Source.exists_offset_of_mem mem fault
    refine ⟨p, at_offset, ?_, ?_⟩
    · rw [← List.head?_drop, behind]
      rfl
    · intro w nonempty front
      rw [behind] at front
      exact (Source.startsNothing_of_mem mem fault).unknown nonempty front

end Pseudocode

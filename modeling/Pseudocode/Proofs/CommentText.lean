import Pseudocode.Proofs.LineBreak
import Pseudocode.Proofs.Lookahead

/-!
# Comment text

What a comment says does not matter: texts that differ only in the rest of a line behind two
slashes have the same tokens, and the same faults at the same locations (`scan_comment_text`).

The two slashes need not be where the comment begins.  The text before them may end in a comment
already, or in a slash, and then the comment begins earlier.  But wherever it begins, the
pieces in front of it do not depend on what it says (`exists_cut_at_comment`), and what comes
behind it starts on a new line, where the length of the comment is forgotten.
-/

namespace Pseudocode

/-! ## Fitting before a comment -/

namespace Piece

/-- A piece that leaves the reader of single characters in code fits before a comment at the end of
    the text.  Only a slash and a comment do not, which the new comment makes a part of itself,
    and an open string. -/
theorem Fits.append_slash {p : Piece} {rest : Text} (fits : p.Fits rest)
    (apart : rest = [] → p.mode = .code) (more : Text) : p.Fits (rest ++ '/' :: more) := by
  constructor
  · cases p with
    | comment body =>
        refine ⟨fits.1.1, fits.1.2.append_right ?_ _⟩
        intro empty
        exact nomatch apart empty
    | openString body => exact nomatch apart fits.1.2
    | _ => exact fits.1
  · intro l mem
    refine (fits.2 l mem).append_cons (by decide) (by decide) ?_ more
    rintro rfl empty
    have code := apart empty
    cases p with
    | lexeme l' =>
        obtain rfl := Option.some.inj mem
        exact nomatch code
    | _ => exact nomatch mem

/-- What does not leave it in code is a slash, a comment or an open string. -/
theorem cases_mode (p : Piece) : p.mode = .code ∨ p = .lexeme (.operator .slash) ∨
    (∃ body, p = comment body) ∨ p.fault? = some .unterminatedString := by
  cases p with
  | lexeme l =>
      cases l with
      | operator o =>
          cases o with
          | slash => exact .inr (.inl rfl)
          | _ => exact .inl rfl
      | _ => exact .inl rfl
  | comment body => exact .inr (.inr (.inl ⟨body, rfl⟩))
  | openString body => exact .inr (.inr (.inr rfl))
  | _ => exact .inl rfl

end Piece

/-! ## Where the comment begins -/

/-- **The cut in front of a comment** does not depend on what the comment says.  If no string is
    open where two slashes follow a text, there are pieces and the beginning of a comment, such
    that the text, the slashes and the rest of their line are cut into just these. -/
theorem exists_cut_at_comment {ps : List Piece} (fit : FitBefore ps [])
    (closed : ∀ p ∈ ps, p.fault? ≠ some .unterminatedString) :
    ∃ (front : List Piece) (opening : Text), ∀ body rest, Text.lineEnd ∉ body →
      RunEnds (· != Text.lineEnd) rest →
      pieces (ps.flatMap Piece.text ++ '/' :: '/' :: (body ++ rest)) =
        front ++ .comment (opening ++ body) :: pieces rest := by
  induction ps with
  | nil => exact ⟨[], [], fun body rest => pieces_comment⟩
  | cons p ps ih =>
      obtain ⟨fits, behind⟩ := fit
      rw [List.append_nil] at fits
      by_cases apart : ps.flatMap Piece.text = [] → p.mode = .code
      · obtain ⟨front, opening, cut⟩ := ih behind fun q mem => closed q (List.mem_cons_of_mem p mem)
        refine ⟨p :: front, opening, ?_⟩
        intro body rest inside_line ends
        rw [List.flatMap_cons, List.append_assoc,
          pieces_append_of_fits (fits.append_slash apart _), cut body rest inside_line ends]
        rfl
      · obtain ⟨empty, not_code⟩ := Classical.not_imp.mp apart
        obtain rfl := behind.eq_nil empty
        -- the comment begins with the last piece
        rcases p.cases_mode with code | rfl | ⟨body', rfl⟩ | unterminated
        · exact absurd code not_code
        · refine ⟨[], ['/'], ?_⟩
          intro body rest inside_line ends
          have inside : Text.lineEnd ∉ '/' :: body :=
            List.not_mem_cons_of_ne_of_not_mem (by decide) inside_line
          exact pieces_comment inside ends
        · refine ⟨[], body' ++ ['/', '/'], ?_⟩
          intro body rest inside_line ends
          have slashes : Text.lineEnd ∉ ['/', '/'] := by decide
          have inside : Text.lineEnd ∉ body' ++ ['/', '/'] ++ body := by
            rw [List.mem_append, List.mem_append, not_or, not_or]
            exact ⟨⟨fits.1.1, slashes⟩, inside_line⟩
          have cut := pieces_comment inside ends
          simpa [Piece.text] using cut
        · exact absurd unterminated (closed p List.mem_cons_self)

/-! ## What is found in front of the comment and behind it -/

/-- Sightings do not see what stands behind them. -/
theorem map_sighting_diagnosticsOf_append (file : Text) (cur : Cursor) (ps qs : List Piece) :
    (diagnosticsOf file cur (ps ++ qs)).map Diagnostic.sighting =
      (diagnosticsOf file cur ps).map Diagnostic.sighting ++
        (diagnosticsOf file (cur.advance (ps.flatMap Piece.text)) qs).map Diagnostic.sighting := by
  induction ps generalizing cur with
  | nil => rfl
  | cons p ps ih =>
      have later := ih (cur.advance p.text)
      rw [← Cursor.advance_append] at later
      cases p with
      | stray c => exact congrArg (_ :: ·) later
      | openString body => exact congrArg (_ :: ·) later
      | _ => exact later

theorem diagnosticsOf_eq_of_line {cur cur' : Cursor} (same : cur.line = cur'.line) {rest : Text}
    (ends : RunEnds (· != Text.lineEnd) rest) (file : Text) :
    diagnosticsOf file cur (pieces rest) = diagnosticsOf file cur' (pieces rest) := by
  cases rest with
  | nil =>
      rw [pieces_nil]
      rfl
  | cons c rest =>
      obtain rfl : c = Text.lineEnd := by simpa using ends.head
      rw [pieces_blank rest (by decide), diagnosticsOf_blank, diagnosticsOf_blank,
        cur.step_lineEnd, cur'.step_lineEnd, same]

/-- What is found in a text with a comment: what is in front of the comment, and then what stands
    behind it, from the line on that the comment begins on. -/
theorem found_at_comment {a body opening rest : Text} {front : List Piece}
    (cut : pieces (a ++ '/' :: '/' :: (body ++ rest)) = front ++ .comment opening :: pieces rest)
    (inside_line : Text.lineEnd ∉ body) (ends : RunEnds (· != Text.lineEnd) rest) (file : Text)
    (n : Int) :
    (Source.scan ⟨a ++ '/' :: '/' :: (body ++ rest), file, n⟩).tokens =
      tokensOf (.atLine n) front ++ tokensOf ((Cursor.atLine n).advance a) (pieces rest) ++
        [.eof (n + (a ++ rest).count Text.lineEnd)] ∧
    (Source.scan ⟨a ++ '/' :: '/' :: (body ++ rest), file, n⟩).diagnostics.map
        Diagnostic.sighting =
      (diagnosticsOf file (.atLine n) front).map Diagnostic.sighting ++
        (diagnosticsOf file ((Cursor.atLine n).advance a) (pieces rest)).map
          Diagnostic.sighting := by
  have none : ('/' :: '/' :: (body ++ rest)).count Text.lineEnd = rest.count Text.lineEnd := by
    rw [List.count_cons_of_ne (by decide), List.count_cons_of_ne (by decide), List.count_append,
      List.count_eq_zero.mpr inside_line, Nat.zero_add]
  have whole := congrArg (List.flatMap Piece.text) cut
  rw [flatMap_text_pieces, List.flatMap_append, List.flatMap_cons, flatMap_text_pieces] at whole
  have counts := congrArg (List.count Text.lineEnd) whole
  rw [List.count_append, List.count_append, List.count_append, none] at counts
  -- the cursor behind the comment is on the line of the cursor behind `a`
  have line : (((Cursor.atLine n).advance (front.flatMap Piece.text)).advance
      (Piece.comment opening).text).line = ((Cursor.atLine n).advance a).line := by
    rw [Cursor.line_advance, Cursor.line_advance, Cursor.line_advance]
    omega
  constructor
  · show tokensOf _ (pieces (a ++ '/' :: '/' :: (body ++ rest))) ++
      [Token.eof (Cursor.advance _ (a ++ '/' :: '/' :: (body ++ rest))).line] = _
    rw [cut, tokensOf_append, Cursor.line_advance, List.count_append, none, ← List.count_append,
      ← tokensOf_eq_of_line line]
    rfl
  · show (diagnosticsOf _ _ (pieces (a ++ '/' :: '/' :: (body ++ rest)))).map _ = _
    rw [cut, map_sighting_diagnosticsOf_append, ← diagnosticsOf_eq_of_line line ends]
    rfl

/-- **Comment text is irrelevant.**  Let two slashes follow a text that leaves no string open, and
    let nothing follow them on their line but free text.  Then the tokens of the whole and
    their lines do not depend on this free text, and neither do the faults and their locations. -/
theorem scan_comment_text {a b : Text} (c c' : Text) {file : Text} {n : Int}
    (closed : ∀ d ∈ (Source.scan ⟨a, file, n⟩).diagnostics, d.fault ≠ .unterminatedString)
    (inside_line : Text.lineEnd ∉ c) (inside_line' : Text.lineEnd ∉ c')
    (behind : b = [] ∨ ∃ rest, b = Text.lineEnd :: rest) :
    (Source.scan ⟨a ++ '/' :: '/' :: (c ++ b), file, n⟩).tokens =
      (Source.scan ⟨a ++ '/' :: '/' :: (c' ++ b), file, n⟩).tokens ∧
    (Source.scan ⟨a ++ '/' :: '/' :: (c ++ b), file, n⟩).diagnostics.map Diagnostic.sighting =
      (Source.scan ⟨a ++ '/' :: '/' :: (c' ++ b), file, n⟩).diagnostics.map
        Diagnostic.sighting := by
  have ends : RunEnds (· != Text.lineEnd) b := by
    rcases behind with rfl | ⟨rest, rfl⟩
    · exact .nil
    · exact .cons (by decide)
  obtain ⟨front, opening, cut⟩ :=
    exists_cut_at_comment (fitBefore_pieces a) (Source.closed_of_diagnostics closed)
  rw [flatMap_text_pieces] at cut
  have found := found_at_comment (cut c b inside_line ends) inside_line ends file n
  have found' := found_at_comment (cut c' b inside_line' ends) inside_line' ends file n
  exact ⟨found.1.trans found'.1.symm, found.2.trans found'.2.symm⟩

/-- The comment may begin with a slash before the two, and hold quotes and stray characters. -/
theorem scan_comment_text_behind_slash :
    (∀ d ∈ (Source.scan ⟨"# 1./".toList, "p".toList, 3⟩).diagnostics,
      d.fault ≠ .unterminatedString) ∧
    Text.lineEnd ∉ " \"é".toList ∧ Text.lineEnd ∉ "/".toList ∧
    (Source.scan ⟨"# 1./// \"é\n@".toList, "p".toList, 3⟩).tokens =
      (Source.scan ⟨"# 1.////\n@".toList, "p".toList, 3⟩).tokens ∧
    (Source.scan ⟨"# 1./// \"é\n@".toList, "p".toList, 3⟩).diagnostics.map Diagnostic.sighting =
      (Source.scan ⟨"# 1.////\n@".toList, "p".toList, 3⟩).diagnostics.map Diagnostic.sighting := by
  have closed : ∀ d ∈ (Source.scan ⟨"# 1./".toList, "p".toList, 3⟩).diagnostics,
      d.fault ≠ .unterminatedString := by decide +kernel
  have inside_line : Text.lineEnd ∉ " \"é".toList := by decide
  have inside_line' : Text.lineEnd ∉ "/".toList := by decide
  exact ⟨closed, inside_line, inside_line',
    scan_comment_text " \"é".toList "/".toList closed inside_line inside_line'
      (b := "\n@".toList) (.inr ⟨['@'], rfl⟩)⟩

end Pseudocode

import Pseudocode.Proofs.FileText
import Pseudocode.Proofs.LineStamp
import Pseudocode.Proofs.Located
import Pseudocode.Proofs.Printed

/-!
# Carriage returns

A source may end its lines in CR LF as well as in LF: a scan finds the same tokens on the same
lines and the same faults in the same places, and a CR shows only where the text of a line end
shows, inside strings and at the end of quoted source lines (`scan_crlf`).  The route:

* a CR in front of a line end does not change where a cursor gets to (`Cursor.advance_crlf`), so
  lines and columns stay, although all offsets move;
* a CR ends every run that a line end ends, so a lexeme still fits before the rest of the text
  (`Lexeme.EndsBefore.crlf`);
* the CR in front of a line end is a blank of its own, unless it ends a comment or stands in a
  string, which swallow it (`found_crlf`, by induction on the pieces).
-/

namespace Pseudocode

/-! ## Texts -/

namespace Text

/-- The text with its lines ended by CR LF. -/
abbrev crlf (s : Text) : Text :=
  s.withLineEnds .crlf

theorem crlf_lineEnd (s : Text) : crlf (lineEnd :: s) = '\r' :: lineEnd :: crlf s :=
  withLineEnds_lineEnd_cons .crlf s

theorem crlf_cons {c : Char} (inside_line : c ≠ lineEnd) (s : Text) :
    crlf (c :: s) = c :: crlf s :=
  withLineEnds_cons inside_line .crlf s

theorem crlf_append (s t : Text) : crlf (s ++ t) = crlf s ++ crlf t :=
  List.flatMap_append

theorem crlf_of_one_line {s : Text} (one_line : lineEnd ∉ s) : crlf s = s := by
  induction s with
  | nil => rfl
  | cons c s ih =>
      have first : c ≠ lineEnd := fun ends => one_line (ends ▸ List.mem_cons_self)
      rw [crlf_cons first, ih fun mem => one_line (List.mem_cons_of_mem c mem)]

/-- The only character that is added is CR. -/
theorem not_mem_crlf {c : Char} {s : Text} (no_cr : c ≠ '\r') (none : c ∉ s) : c ∉ crlf s := by
  intro mem
  obtain ⟨d, inside, written⟩ := List.mem_flatMap.mp mem
  by_cases ends : d = lineEnd
  · subst ends
    rw [if_pos rfl] at written
    rcases List.mem_cons.mp written with cr | lf
    · exact no_cr cr
    · obtain rfl := List.mem_singleton.mp lf
      exact none inside
  · rw [if_neg ends, List.mem_singleton] at written
    exact none (written ▸ inside)

/-- A line ends in CR exactly if a line end follows it. -/
theorem takeWhile_crlf (s : Text) : (crlf s).takeWhile (· != lineEnd) =
    s.takeWhile (· != lineEnd) ++ if lineEnd ∈ s then ['\r'] else [] := by
  induction s with
  | nil => rfl
  | cons c s ih =>
      by_cases ends : c = lineEnd
      · subst ends
        rw [crlf_lineEnd, if_pos List.mem_cons_self]
        rfl
      · have later : lineEnd ∈ c :: s ↔ lineEnd ∈ s := by
          rw [List.mem_cons, or_iff_right (Ne.symm ends)]
        rw [crlf_cons ends, List.takeWhile_cons_of_pos (by simpa using ends),
          List.takeWhile_cons_of_pos (by simpa using ends), ih, if_congr later rfl rfl]
        rfl

end Text

/-- **Cursors do not notice a CR in front of a line end.** -/
theorem Cursor.advance_crlf (cur : Cursor) (s : Text) : cur.advance s.crlf = cur.advance s := by
  induction s generalizing cur with
  | nil => rfl
  | cons c s ih =>
      by_cases ends : c = Text.lineEnd
      · subst ends
        -- what was passed before the line end is forgotten behind it, the CR with the rest
        rw [Text.crlf_lineEnd]
        exact ih (cur.step Text.lineEnd)
      · rw [Text.crlf_cons ends]
        exact ih (cur.step c)

/-! ## Lexemes -/

theorem RunEnds.crlf {p : Char → Bool} {rest : Text} (h : RunEnds p rest) (other : p '\r' = false) :
    RunEnds p rest.crlf := by
  cases rest with
  | nil => exact .nil
  | cons c rest =>
      by_cases ends : c = Text.lineEnd
      · subst ends
        rw [Text.crlf_lineEnd]
        exact .cons other
      · rw [Text.crlf_cons ends]
        exact .cons h.head

theorem Text.head?_crlf_ne {rest : Text} {c : Char} (no_cr : c ≠ '\r')
    (h : rest.head? ≠ some c) : rest.crlf.head? ≠ some c := by
  have ends : RunEnds (· == c) rest := by
    intro d head
    refine beq_eq_false_iff_ne.mpr fun same => h ?_
    rw [← same]
    exact head
  intro head
  have other := ends.crlf (beq_eq_false_iff_ne.mpr (Ne.symm no_cr)) c head
  exact beq_eq_false_iff_ne.mp other rfl

namespace Lexeme

/-- The lexeme as it stands in a text whose lines end in CR LF. -/
def crlf : Lexeme → Lexeme
  | string body => string body.crlf
  | l => l

/-- Only strings have line ends inside. -/
theorem crlf_eq_self {l : Lexeme} (other : l.kind ≠ .string) : l.crlf = l := by
  cases l with
  | string body => exact absurd rfl other
  | _ => rfl

theorem WellFormed.crlf {l : Lexeme} (wf : l.WellFormed) : l.crlf.WellFormed := by
  cases l with
  | string body => exact Text.not_mem_crlf (by decide) wf
  | _ => exact wf

theorem text_crlf {l : Lexeme} (wf : l.WellFormed) : l.crlf.text = l.text.crlf := by
  cases l with
  | string body =>
      have open_quote : quoteChar ≠ Text.lineEnd := by decide
      show quoteChar :: body.crlf ++ [quoteChar] = Text.crlf (quoteChar :: body ++ [quoteChar])
      rw [Text.crlf_append, Text.crlf_cons open_quote]
      rfl
  | word letters =>
      exact (Text.crlf_of_one_line (lineEnd_not_mem_text wf (Kind.ofWord_ne_string letters))).symm
  | _ => exact (Text.crlf_of_one_line (lineEnd_not_mem_text wf nofun)).symm

/-- **A lexeme ends before a CR as it ends before a line end.** -/
theorem EndsBefore.crlf {l : Lexeme} {rest : Text} (h : l.EndsBefore rest) :
    l.crlf.EndsBefore rest.crlf := by
  cases l with
  | operator o =>
      exact ⟨fun lengthens => Text.head?_crlf_ne (by decide) (h.1 lengthens),
        fun slash => Text.head?_crlf_ne (by decide) (h.2 slash)⟩
  | word letters => exact RunEnds.crlf h (by decide)
  | number whole fraction =>
      refine ⟨h.1.crlf (by decide), ?_⟩
      intro none d tail front
      cases rest with
      | nil => exact nomatch front
      | cons c rest =>
          by_cases ends : c = Text.lineEnd
          · subst ends
            rw [Text.crlf_lineEnd] at front
            exact absurd (List.cons.inj front).1 (by decide)
          · rw [Text.crlf_cons ends] at front
            obtain ⟨rfl, behind⟩ := List.cons.inj front
            -- what follows the point is no digit, and a CR is none either
            have noDigit : RunEnds Char.isDigit rest := by
              intro e head
              obtain ⟨s, rfl⟩ := List.head?_eq_some_iff.mp head
              exact h.2 none e s rfl
            refine noDigit.crlf (by decide) d ?_
            rw [behind]
            rfl
  | string body => trivial

end Lexeme

/-! ## Tokens and diagnostics -/

/-- A text literal with its lines ended by CR LF. -/
def Literal.crlf : Literal → Literal
  | .text s => .text s.crlf
  | .number x => .number x

/-- The token with the lines of its lexeme and of its literal ended by CR LF. -/
def Token.crlf (t : Token) : Token :=
  { t with lexeme := t.lexeme.crlf, literal := t.literal.map Literal.crlf }

theorem Lexeme.token_crlf {l : Lexeme} (wf : l.WellFormed) (line : Int) :
    l.crlf.token line = (l.token line).crlf := by
  have text := text_crlf wf
  cases l with
  | operator o => exact congrArg (Token.mk (.operator o) · none line) text
  | word letters => exact congrArg (Token.mk (.ofWord letters) · none line) text
  | number whole fraction => exact congrArg (Token.mk .number · _ line) text
  | string body => exact congrArg (Token.mk .string · _ line) text

/-- The diagnostic `d` of the source comes as `d'` if the lines of the source end in CR LF: it has
    the same fault and the same location, and at the end of its source line a CR, unless this
    is the last line of the source, which no line end closes. -/
structure Diagnostic.Crlf (src : Source) (d d' : Diagnostic) : Prop where
  fault : d'.fault = d.fault
  location : d'.location = d.location
  sourceLine : ∃ p, d.location = some (src.locationAt p) ∧
    d.sourceLine = some (src.text.lineAt p) ∧
    d'.sourceLine =
      some (src.text.lineAt p ++ if Text.lineEnd ∈ src.text.drop p then ['\r'] else [])

/-- What is found from the cursor on among pieces of the source, `ps`, is found among the pieces
    `qs` with CR LF for line ends. -/
structure FoundCrlf (src : Source) (cur : Cursor) (ps qs : List Piece) : Prop where
  tokens : tokensOf cur qs = (tokensOf cur ps).map Token.crlf
  diagnostics : List.Forall₂ (Diagnostic.Crlf src) (diagnosticsOf src.file cur ps)
    (diagnosticsOf src.file cur qs)

namespace FoundCrlf

variable {src : Source} {cur : Cursor} {ps qs : List Piece}

theorem lexeme {l : Lexeme} (wf : l.WellFormed)
    (behind : FoundCrlf src (cur.advance l.text) ps qs) :
    FoundCrlf src cur (.lexeme l :: ps) (.lexeme l.crlf :: qs) := by
  have stop : cur.advance l.crlf.text = cur.advance l.text := by
    rw [Lexeme.text_crlf wf, Cursor.advance_crlf]
  constructor
  · show l.crlf.token (cur.advance l.crlf.text).line :: tokensOf (cur.advance l.crlf.text) qs =
      (l.token (cur.advance l.text).line).crlf :: (tokensOf (cur.advance l.text) ps).map Token.crlf
    rw [stop, Lexeme.token_crlf wf, behind.tokens]
  · show List.Forall₂ _ (diagnosticsOf _ (cur.advance l.text) ps)
      (diagnosticsOf _ (cur.advance l.crlf.text) qs)
    rw [stop]
    exact behind.diagnostics

theorem blank {c : Char} (behind : FoundCrlf src (cur.step c) ps qs) :
    FoundCrlf src cur (.blank c :: ps) (.blank c :: qs) :=
  ⟨behind.tokens, behind.diagnostics⟩

/-- The CR in front of a line end is a blank. -/
theorem lineEnd (behind : FoundCrlf src (cur.step Text.lineEnd) ps qs) :
    FoundCrlf src cur (.blank Text.lineEnd :: ps) (.blank '\r' :: .blank Text.lineEnd :: qs) :=
  ⟨behind.tokens, behind.diagnostics⟩

theorem comment {body : Text}
    (behind : FoundCrlf src (cur.advance (Piece.comment body).text) ps qs) :
    FoundCrlf src cur (.comment body :: ps) (.comment body :: qs) :=
  ⟨behind.tokens, behind.diagnostics⟩

/-- A comment may take the CR that is a blank behind it. -/
theorem comment_cr {body : Text}
    (behind : FoundCrlf src cur ps (.comment body :: .blank '\r' :: qs)) :
    FoundCrlf src cur ps (.comment (body ++ ['\r']) :: qs) := by
  have stop : cur.advance (Piece.comment (body ++ ['\r'])).text =
      (cur.advance (Piece.comment body).text).step '\r' :=
    Cursor.advance_append cur (Piece.comment body).text ['\r']
  obtain ⟨tokens, diagnostics⟩ := behind
  constructor
  · rw [← tokens]
    show tokensOf (cur.advance _) qs = tokensOf (Cursor.step (cur.advance _) '\r') qs
    rw [stop]
  · show List.Forall₂ _ _ (diagnosticsOf _ (cur.advance (Piece.comment (body ++ ['\r'])).text) qs)
    rw [stop]
    exact diagnostics

/-- A fault at a cursor is the same fault in the same place if the text behind the cursor has its
    lines ended by CR LF. -/
theorem diagnose {before rest : Text} (split : src.text = before ++ rest) (fault : Fault) :
    Diagnostic.Crlf src
      (((Cursor.atLine src.line).advance before).diagnose src.file fault
        (rest.takeWhile (· != Text.lineEnd)))
      (((Cursor.atLine src.line).advance before).diagnose src.file fault
        (rest.crlf.takeWhile (· != Text.lineEnd))) where
  fault := rfl
  location := rfl
  sourceLine := by
    have known := Source.diagnose_advance split fault
    have behind : src.text.drop before.length = rest := by
      rw [split, List.drop_left]
    refine ⟨before.length, ?_, ?_, ?_⟩
    · rw [known]
      rfl
    · rw [known]
      rfl
    · rw [behind, Text.takeWhile_crlf, ← Source.lineWith_advance split]
      simp [Cursor.diagnose, Cursor.lineWith]

theorem stray {before rest : Text} {c : Char} (inside_line : c ≠ Text.lineEnd)
    (split : src.text = before ++ c :: rest) (whole : ps.flatMap Piece.text = rest)
    (whole' : qs.flatMap Piece.text = rest.crlf)
    (behind : FoundCrlf src (((Cursor.atLine src.line).advance before).step c) ps qs) :
    FoundCrlf src ((Cursor.atLine src.line).advance before) (.stray c :: ps) (.stray c :: qs) := by
  refine ⟨behind.tokens, ?_⟩
  have here := diagnose split (.unexpectedCharacter c)
  have shown : lineRest (.stray c :: ps) = (c :: rest).takeWhile (· != Text.lineEnd) := by
    rw [lineRest_eq, List.flatMap_cons, whole]
    rfl
  have shown' : lineRest (.stray c :: qs) =
      (Text.crlf (c :: rest)).takeWhile (· != Text.lineEnd) := by
    rw [lineRest_eq, List.flatMap_cons, whole', Text.crlf_cons inside_line]
    rfl
  rw [← shown, ← shown'] at here
  exact .cons here behind.diagnostics

/-- An open string is missed where the text ends, which is where it ended before. -/
theorem openString {before body : Text} (split : src.text = before ++ quoteChar :: body) :
    FoundCrlf src ((Cursor.atLine src.line).advance before) [.openString body]
      [.openString body.crlf] := by
  refine ⟨rfl, .cons ?_ .nil⟩
  have text : (Piece.openString body.crlf).text = Text.crlf (quoteChar :: body) :=
    (Text.crlf_cons (by decide) body).symm
  rw [← List.append_nil (before ++ _)] at split
  have here := diagnose split .unterminatedString
  show Diagnostic.Crlf src (Cursor.diagnose (Cursor.advance _ (quoteChar :: body)) src.file _ [])
    (Cursor.diagnose (Cursor.advance _ (Piece.openString body.crlf).text) src.file _ [])
  rw [text, Cursor.advance_crlf, ← Cursor.advance_append]
  exact here

end FoundCrlf

/-! ## Scans -/

theorem Piece.crlf_text_comment {body : Text} (inside_line : Text.lineEnd ∉ body) :
    (comment body).text.crlf = (comment body).text := by
  refine Text.crlf_of_one_line fun mem => ?_
  rcases List.mem_append.mp (show _ ∈ ['/', '/'] ++ body from mem) with slashes | inside
  · exact absurd slashes (by decide)
  · exact inside_line inside

/-- A comment in front of a line end takes the CR. -/
theorem pieces_crlf_comment {body : Text} (inside_line : Text.lineEnd ∉ body) (rest : Text) :
    pieces (Text.crlf ((Piece.comment body).text ++ Text.lineEnd :: rest)) =
      .comment (body ++ ['\r']) :: .blank Text.lineEnd :: pieces rest.crlf := by
  have inside : Text.lineEnd ∉ body ++ ['\r'] := by
    rw [List.mem_append, not_or]
    exact ⟨inside_line, by decide⟩
  have text : Text.crlf ((Piece.comment body).text ++ Text.lineEnd :: rest) =
      '/' :: '/' :: (body ++ ['\r'] ++ Text.lineEnd :: rest.crlf) := by
    rw [Text.crlf_append, Piece.crlf_text_comment inside_line, Text.crlf_lineEnd]
    simp [Piece.text]
  rw [text, pieces_comment_lineEnd inside]

/-- **With CR LF for line ends the same is found.** -/
theorem found_crlf {src : Source} {before : Text} {ps : List Piece} (fit : FitBefore ps [])
    (split : src.text = before ++ ps.flatMap Piece.text) :
    FoundCrlf src ((Cursor.atLine src.line).advance before) ps
      (pieces (Text.crlf (ps.flatMap Piece.text))) := by
  induction ps generalizing before with
  | nil =>
      show FoundCrlf src _ [] (pieces [])
      rw [pieces_nil]
      exact ⟨rfl, .nil⟩
  | cons p ps ih =>
      obtain ⟨fits, behind⟩ := fit
      rw [List.append_nil] at fits
      rw [List.flatMap_cons] at split
      have later := ih behind (split.trans (List.append_assoc _ _ _).symm)
      rw [Cursor.advance_append] at later
      rw [List.flatMap_cons]
      generalize whole : ps.flatMap Piece.text = rest at *
      cases p with
      | lexeme l =>
          obtain ⟨wf, ends⟩ := Piece.fits_lexeme.mp fits
          show FoundCrlf src _ _ (pieces (Text.crlf (l.text ++ rest)))
          rw [Text.crlf_append, ← Lexeme.text_crlf wf, pieces_lexeme wf.crlf ends.crlf]
          exact later.lexeme wf
      | blank c =>
          show FoundCrlf src _ _ (pieces (Text.crlf (c :: rest)))
          by_cases ends : c = Text.lineEnd
          · subst ends
            rw [Text.crlf_lineEnd, pieces_blank _ (by decide), pieces_blank _ (by decide)]
            exact later.lineEnd
          · rw [Text.crlf_cons ends, pieces_blank _ fits.1]
            exact later.blank
      | comment body =>
          obtain ⟨inside_line, ends⟩ := fits.1
          cases rest with
          | nil =>
              rw [List.append_nil, Piece.crlf_text_comment inside_line,
                ← List.append_nil (Piece.text _), pieces_append_of_fits fits]
              exact later.comment
          | cons c rest =>
              obtain rfl : c = Text.lineEnd := by simpa using ends.head
              rw [Text.crlf_lineEnd, pieces_blank _ (by decide),
                pieces_blank _ (by decide)] at later
              rw [pieces_crlf_comment inside_line]
              exact later.comment.comment_cr
      | stray c =>
          have inside_line := fits.1.ne_lineEnd
          show FoundCrlf src _ _ (pieces (Text.crlf (c :: rest)))
          rw [Text.crlf_cons inside_line, pieces_stray _ fits.1]
          exact later.stray inside_line split whole (flatMap_text_pieces _)
      | openString body =>
          obtain ⟨noQuote, rfl⟩ := fits.1
          obtain rfl := behind.eq_nil whole
          have fits' : (Piece.openString body.crlf).Fits [] :=
            Piece.fits_of_stands rfl ⟨Text.not_mem_crlf (by decide) noQuote, rfl⟩
          have cut : pieces (quoteChar :: body.crlf ++ []) = .openString body.crlf :: pieces [] :=
            pieces_append_of_fits fits'
          rw [List.append_nil, pieces_nil] at cut
          rw [List.append_nil] at split ⊢
          show FoundCrlf src _ _ (pieces (Text.crlf (quoteChar :: body)))
          rw [Text.crlf_cons (by decide), cut]
          exact .openString split

/-- **CR LF for line ends changes only what shows a line end.**  End the lines of a source in
    CR LF.  Then a scan finds
    1. as many tokens, each of the same kind and on the same line as before, with the lexeme and the
       text literal as they stand in the new source;
    2. hence the same tokens but for strings, since no other lexeme has a line end inside;
    3. as many diagnostics, with the same faults at the same locations, the source lines of
       which have a CR at the end if a line end closes them. -/
theorem scan_crlf (src : Source) :
    (Source.scan ⟨src.text.withLineEnds .crlf, src.file, src.line⟩).tokens =
      src.scan.tokens.map Token.crlf ∧
    (∀ t ∈ src.scan.tokens, t.kind ≠ .string → t.crlf = t) ∧
    List.Forall₂ (Diagnostic.Crlf src) src.scan.diagnostics
      (Source.scan ⟨src.text.withLineEnds .crlf, src.file, src.line⟩).diagnostics := by
  obtain ⟨tokens, diagnostics⟩ := @found_crlf src [] _ (fitBefore_pieces src.text)
    (flatMap_text_pieces src.text).symm
  rw [flatMap_text_pieces] at tokens diagnostics
  refine ⟨?_, ?_, diagnostics⟩
  · show tokensOf _ _ ++ [Token.eof (Cursor.advance _ src.text.crlf).line] =
      (tokensOf _ _ ++ [_]).map Token.crlf
    rw [Cursor.advance_crlf, List.map_append]
    exact congrArg (· ++ [Token.eof src.stop.line]) tokens
  · intro t mem other
    cases Source.found_of_mem mem with
    | @lexeme l wf line =>
        rw [← Lexeme.token_crlf wf, Lexeme.crlf_eq_self other]
    | eof line => rfl

/-- The CR at the end of a comment is quoted with its line; the last line has none. -/
example : (Source.scan ⟨Text.withLineEnds .crlf "# //\n@".toList, [], 1⟩).diagnostics.map
    Diagnostic.sourceLine = [some "# //\r".toList, some "@".toList] := by
  decide +kernel

end Pseudocode

import Pseudocode.Proofs.Partition

/-!
# Line breaks

A line end ends every piece but an open string.  So a text may be scanned line by line: what
stands before a line end is cut as if the text ended there, and what stands behind it as
if it were a text of its own (`pieces_append_lineEnd`).  Tokens and diagnostics follow, with
the lines counted on (`scan_append_lineEnd`).

The reason is one law on fitting: a piece that fits before a text still fits if the text
goes on behind its end with a new line (`Piece.Fits.append_lineEnd`).  This is where
lookahead matters: an operator, a number or a point with nothing behind it must not change its
mind when it sees the line end instead.
-/

namespace Pseudocode

/-! ## Fitting before a line end -/

theorem RunEnds.append {p : Char → Bool} {rest : Text} {c : Char} (h : RunEnds p rest)
    (other : p c = false) (more : Text) : RunEnds p (rest ++ c :: more) := by
  cases rest with
  | nil => exact .cons other
  | cons d rest => exact .cons h.head

theorem head?_append_cons {rest : Text} {c d : Char} (h : rest.head? ≠ some d)
    (other : rest = [] → c ≠ d) (more : Text) : (rest ++ c :: more).head? ≠ some d := by
  cases rest with
  | nil => exact fun head => other rfl (Option.some.inj head)
  | cons e rest => exact h

/-- A lexeme still ends before a text that goes on behind its end with a character that is no part
    of a word, no point and no equals sign.  But a slash must not meet another one there. -/
theorem Lexeme.EndsBefore.append_cons {l : Lexeme} {rest : Text} {c : Char}
    (h : l.EndsBefore rest) (noPart : isWordPart c = false) (noSign : c ≠ '.' ∧ c ≠ '=')
    (noComment : l = .operator .slash → rest = [] → c ≠ '/') (more : Text) :
    l.EndsBefore (rest ++ c :: more) := by
  have noDigit : c.isDigit = false := (Bool.or_eq_false_iff.mp noPart).2
  cases l with
  | operator o =>
      exact ⟨fun lengthens => head?_append_cons (h.1 lengthens) (fun _ => noSign.2) more,
        fun slash => head?_append_cons (h.2 slash) (noComment (congrArg operator slash)) more⟩
  | word letters => exact RunEnds.append h noPart more
  | number whole fraction =>
      refine ⟨h.1.append noDigit more, ?_⟩
      intro none d tail front
      -- the point may be the last character, with the new character as what follows it
      match rest with
      | [] => exact absurd (List.cons.inj front).1 noSign.1
      | [_] =>
          obtain ⟨-, front⟩ := List.cons.inj front
          obtain ⟨rfl, -⟩ := List.cons.inj front
          exact noDigit
      | _ :: e :: rest =>
          obtain ⟨point, front⟩ := List.cons.inj front
          obtain ⟨rfl, -⟩ := List.cons.inj front
          exact h.2 none e rest (point ▸ rfl)
  | string body => trivial

theorem Lexeme.EndsBefore.append_lineEnd {l : Lexeme} {rest : Text} (h : l.EndsBefore rest)
    (more : Text) : l.EndsBefore (rest ++ Text.lineEnd :: more) :=
  h.append_cons (by decide) (by decide) (fun _ _ => by decide) more

/-- A piece that fits, unless it is an open string, fits before more lines. -/
theorem Piece.Fits.append_lineEnd {p : Piece} {rest : Text} (fits : p.Fits rest)
    (closed : p.fault? ≠ some .unterminatedString) (more : Text) :
    p.Fits (rest ++ Text.lineEnd :: more) := by
  refine ⟨?_, fun l lexeme => (fits.2 l lexeme).append_lineEnd more⟩
  cases p with
  -- a comment at the end of a text ends with the line instead
  | comment body => exact ⟨fits.1.1, fits.1.2.append (by decide) more⟩
  | openString body => exact absurd rfl closed
  | _ => exact fits.1

theorem FitBefore.append_lineEnd {ps : List Piece} {rest : Text} (fit : FitBefore ps rest)
    (closed : ∀ p ∈ ps, p.fault? ≠ some .unterminatedString) (more : Text) :
    FitBefore ps (rest ++ Text.lineEnd :: more) := by
  induction ps with
  | nil => trivial
  | cons p ps ih =>
      obtain ⟨fits, later⟩ := fit
      refine ⟨?_, ih later fun q mem => closed q (List.mem_cons_of_mem p mem)⟩
      rw [← List.append_assoc]
      exact fits.append_lineEnd (closed p List.mem_cons_self) more

/-! ## Scanning across a line end -/

/-- **A line end cuts the text in two**, unless a string is open before it. -/
theorem pieces_append_lineEnd {a : Text}
    (closed : ∀ p ∈ pieces a, p.fault? ≠ some .unterminatedString) (b : Text) :
    pieces (a ++ Text.lineEnd :: b) = pieces a ++ .blank Text.lineEnd :: pieces b := by
  have fit := (fitBefore_pieces a).append_lineEnd closed b
  have whole := pieces_of_fitBefore fit
  rwa [List.nil_append, flatMap_text_pieces, pieces_blank b (by decide)] at whole

theorem Cursor.step_lineEnd (cur : Cursor) :
    cur.step Text.lineEnd = Cursor.atLine (cur.line + 1) :=
  if_pos rfl

theorem tokensOf_blank (cur : Cursor) (c : Char) (ps : List Piece) :
    tokensOf cur (.blank c :: ps) = tokensOf (cur.step c) ps :=
  rfl

theorem diagnosticsOf_blank (file : Text) (cur : Cursor) (c : Char) (ps : List Piece) :
    diagnosticsOf file cur (.blank c :: ps) = diagnosticsOf file (cur.step c) ps :=
  rfl

theorem Source.closed_of_diagnostics {src : Source}
    (closed : ∀ d ∈ src.scan.diagnostics, d.fault ≠ .unterminatedString) :
    ∀ p ∈ pieces src.text, p.fault? ≠ some .unterminatedString := by
  intro p mem fault
  have faults := map_fault_diagnosticsOf src.file (.atLine src.line) (pieces src.text)
  have found : Fault.unterminatedString ∈ (pieces src.text).filterMap Piece.fault? :=
    List.mem_filterMap.mpr ⟨p, mem, fault⟩
  rw [← faults] at found
  obtain ⟨d, mem, same⟩ := List.mem_map.mp found
  exact closed d mem same

/-- **Scanning composes at line ends.**  If the text before a line end leaves no string open,
    a scan finds what it finds in that text, and then, from the next line on, what it
    finds in the text behind the line end. -/
theorem scan_append_lineEnd (a b file : Text) (n : Int)
    (closed : ∀ d ∈ (Source.scan ⟨a, file, n⟩).diagnostics, d.fault ≠ .unterminatedString) :
    ∃ m, (Source.scan ⟨a, file, n⟩).tokens.getLast? = some (.eof m) ∧
      (Source.scan ⟨a ++ Text.lineEnd :: b, file, n⟩).tokens =
        (Source.scan ⟨a, file, n⟩).tokens.dropLast ++ (Source.scan ⟨b, file, m + 1⟩).tokens ∧
      (Source.scan ⟨a ++ Text.lineEnd :: b, file, n⟩).diagnostics =
        (Source.scan ⟨a, file, n⟩).diagnostics ++ (Source.scan ⟨b, file, m + 1⟩).diagnostics := by
  have cut := pieces_append_lineEnd (Source.closed_of_diagnostics closed) b
  have next := ((Cursor.atLine n).advance a).step_lineEnd
  refine ⟨((Cursor.atLine n).advance a).line, List.getLast?_concat .., ?_, ?_⟩
  · show tokensOf _ (pieces (a ++ Text.lineEnd :: b)) ++ [Token.eof (Cursor.advance _ _).line] =
      List.dropLast (tokensOf _ (pieces a) ++ [_]) ++
        (tokensOf _ (pieces b) ++ [Token.eof (Cursor.advance _ _).line])
    rw [cut, tokensOf_append, flatMap_text_pieces, tokensOf_blank, next, Cursor.advance_append,
      Cursor.advance_cons, next, List.dropLast_concat, List.append_assoc]
  · show diagnosticsOf _ _ (pieces (a ++ Text.lineEnd :: b)) =
      diagnosticsOf _ _ (pieces a) ++ diagnosticsOf _ _ (pieces b)
    rw [cut, diagnosticsOf_append rfl, flatMap_text_pieces, diagnosticsOf_blank, next]

/-- The seam may stand behind a point that lacks its digits, and a string may open behind it. -/
theorem scan_append_lineEnd_of_point :
    (∀ d ∈ (Source.scan ⟨"# 12.".toList, "p".toList, 3⟩).diagnostics,
      d.fault ≠ .unterminatedString) ∧
    ∃ m, (Source.scan ⟨"# 12.\n5 \"".toList, "p".toList, 3⟩).diagnostics =
      (Source.scan ⟨"# 12.".toList, "p".toList, 3⟩).diagnostics ++
        (Source.scan ⟨"5 \"".toList, "p".toList, m + 1⟩).diagnostics := by
  have closed : ∀ d ∈ (Source.scan ⟨"# 12.".toList, "p".toList, 3⟩).diagnostics,
      d.fault ≠ .unterminatedString := by decide +kernel
  obtain ⟨m, -, -, diagnostics⟩ :=
    scan_append_lineEnd "# 12.".toList "5 \"".toList "p".toList 3 closed
  exact ⟨closed, m, diagnostics⟩

end Pseudocode

import Pseudocode.Proofs.LineStamp
import Pseudocode.Proofs.Located

/-!
# Restarting

A scan keeps nothing in mind but its place.  Start it again behind any token, on the line
that the token carries, and it finds the same tokens and the same faults as before
(`scan_restart`).  Only columns can differ, and only on the first line, because a scan that
starts in the middle of a line takes this place for the start of the line.  The route:

* behind a lexeme that fits, the cut is the cut of the rest (`exists_cut_of_tokens`), and
  tokens see nothing of what is before them but the line (`tokensOf_eq_of_line`);
* the marks behind the token are those of the rest, moved on (`marksFrom_add`), and so are
  their locations (`Source.restarts_diagnosticOf`);
* a diagnostic is located behind the token exactly if its mark is (`Source.isFrom_diagnosticOf`).
-/

namespace Pseudocode

/-! ## Lines of the rest of a text -/

namespace Text

variable (before : Text) {rest : Text} {q : Nat}

theorem lineIndex_append_add (rest : Text) (q : Nat) :
    lineIndex (before ++ rest) (before.length + q) = before.count lineEnd + rest.lineIndex q := by
  rw [lineIndex, List.take_length_add_append, List.count_append]
  rfl

/-- Behind a line end of the rest, lines start where they start in the rest. -/
theorem lineStart_append_of_mem (ends : lineEnd ∈ rest.take q) :
    lineStart (before ++ rest) (before.length + q) = before.length + rest.lineStart q := by
  have stops : (rest.take q).reverse.dropWhile (· != lineEnd) ≠ [] := by
    intro nothing
    have other := List.dropWhile_eq_nil_iff.mp nothing lineEnd (List.mem_reverse.mpr ends)
    exact absurd other (by decide)
  rw [lineStart, List.take_length_add_append, List.rdropWhile, List.reverse_append,
    List.dropWhile_append, if_neg (by simpa using stops), List.reverse_append,
    List.reverse_reverse, List.length_append]
  rfl

/-- Before the first line end of the rest, the line is still the one that the rest begins on. -/
theorem lineStart_append_of_one_line (one_line : lineEnd ∉ rest.take q) :
    lineStart (before ++ rest) (before.length + q) = lineStart (before ++ rest) before.length := by
  have inside : ∀ c ∈ (rest.take q).reverse, (c != lineEnd) = true :=
    fun _ mem => bne_of_mem one_line (List.mem_reverse.mp mem)
  rw [lineStart, lineStart, List.take_length_add_append, List.take_left, List.rdropWhile,
    List.rdropWhile, List.reverse_append, List.dropWhile_append_of_pos inside]

theorem lineStart_eq_zero (one_line : lineEnd ∉ rest.take q) : rest.lineStart q = 0 := by
  have start := lineStart_append_of_one_line [] one_line
  rw [List.nil_append, List.length_nil, Nat.zero_add] at start
  exact start.trans (Nat.le_zero.mp (lineStart_le rest 0))

end Text

/-! ## Sources that begin behind a token -/

/-- What stands from an offset on, as a source of its own that begins on line `n`. -/
def Source.restarted (src : Source) (e : Nat) (n : Int) : Source :=
  ⟨src.text.drop e, src.file, n⟩

instance (a b : Location) : Decidable (a.Precedes b) :=
  inferInstanceAs (Decidable (_ ∨ _))

/-- Whether the diagnostic is located at the offset or behind it. -/
def Source.isFrom (src : Source) (e : Nat) (d : Diagnostic) : Bool :=
  d.location.any fun l => ¬ l.Precedes (src.locationAt e)

/-- The location `a` of the source becomes `b` if the source is restarted at the offset `e` on
    line `n`: the file and the line are the same, and on later lines so is the column.  On
    line `n` the column is smaller by the number of characters that stand before the offset
    on its line. -/
structure Location.Restarts (src : Source) (e : Nat) (n : Int) (a b : Location) : Prop where
  file : b.file = a.file
  line : b.line = a.line
  column : n < a.line ∧ b.column = a.column ∨
    a.line = n ∧ b.column = a.column - ((e : Int) - src.text.lineStart e)

/-- The diagnostic `d` of the source comes again as `d'` if the source is restarted. -/
structure Diagnostic.Restarts (src : Source) (e : Nat) (n : Int) (d d' : Diagnostic) : Prop where
  fault : d'.fault = d.fault
  location : ∃ a b, d.location = some a ∧ d'.location = some b ∧ a.Restarts src e n b

namespace Source

variable {src : Source} {front rest : Text} {n : Int}

theorem text_restarted (split : src.text = front ++ rest) :
    (src.restarted front.length n).text = rest := by
  show src.text.drop front.length = rest
  rw [split, List.drop_left]

theorem restarts_locationAt (split : src.text = front ++ rest)
    (counted : n = src.line + front.count Text.lineEnd) (q : Nat) :
    (src.locationAt (front.length + q)).Restarts src front.length n
      ((src.restarted front.length n).locationAt q) := by
  have behind : (src.restarted front.length n).text = rest := text_restarted split
  have index : src.text.lineIndex (front.length + q) =
      front.count Text.lineEnd + rest.lineIndex q := by
    rw [split, Text.lineIndex_append_add]
  refine ⟨rfl, ?_, ?_⟩
  · show n + (Text.lineIndex (src.restarted _ n).text q : Int) =
      src.line + (src.text.lineIndex (front.length + q) : Int)
    rw [behind, index, counted]
    omega
  · simp only [locationAt, behind, index]
    by_cases ends : Text.lineEnd ∈ rest.take q
    · left
      have later : 0 < rest.lineIndex q := List.count_pos_iff.mpr ends
      have start : src.text.lineStart (front.length + q) = front.length + rest.lineStart q := by
        rw [split, Text.lineStart_append_of_mem front ends]
      rw [start, counted]
      omega
    · right
      have same : rest.lineIndex q = 0 := List.count_eq_zero.mpr ends
      have start : src.text.lineStart (front.length + q) = src.text.lineStart front.length := by
        rw [split, Text.lineStart_append_of_one_line front ends]
      rw [start, Text.lineStart_eq_zero ends, same, counted]
      omega

/-- A diagnostic is located at an offset or behind it exactly if its mark is. -/
theorem isFrom_diagnosticOf {e : Nat} (inside : e ≤ src.text.length) {m : Mark}
    (marked : m ∈ marksFrom 0 (pieces src.text)) :
    src.isFrom e (src.diagnosticOf m) = decide (e ≤ m.offset) := by
  have precedes := src.locationAt_precedes_iff (on_of_mem_marks marked).offset_le inside
  show decide (¬ (src.locationAt m.offset).Precedes (src.locationAt e)) = _
  rw [decide_eq_decide, precedes, Nat.not_lt]

end Source

/-! ## Scans that are restarted -/

theorem text_of_cut {s rest : Text} {before : List Piece} {l : Lexeme}
    (cut : pieces s = before ++ .lexeme l :: pieces rest) :
    s = before.flatMap Piece.text ++ l.text ++ rest := by
  have whole := flatMap_text_pieces s
  rw [cut, List.flatMap_append, List.flatMap_cons, flatMap_text_pieces,
    ← List.append_assoc] at whole
  exact whole.symm

/-- Where a token that is not the end token stands among the tokens of a scan, its lexeme stands
    among the pieces, and the later tokens are those of the pieces of the rest. -/
theorem Source.exists_cut_of_tokens {src : Source} {found later : List Token} {t : Token}
    (split : src.scan.tokens = found ++ t :: later) (inside : t.kind ≠ .eof) :
    ∃ before l rest, pieces src.text = before ++ .lexeme l :: pieces rest ∧
      tokensOf (.atLine src.line) before = found ∧
      t = l.token ((Cursor.atLine src.line).advance (before.flatMap Piece.text ++ l.text)).line ∧
      later = tokensOf ((Cursor.atLine src.line).advance (before.flatMap Piece.text ++ l.text))
        (pieces rest) ++ [.eof src.stop.line] := by
  have whole : tokensOf (.atLine src.line) (pieces src.text) ++ [.eof src.stop.line] =
      found ++ t :: later := split
  rcases List.eq_nil_or_concat' later with rfl | ⟨later, last, rfl⟩
  · obtain ⟨-, last⟩ := List.append_inj' whole rfl
    obtain rfl := List.singleton_inj.mp last
    exact absurd rfl inside
  · rw [← List.cons_append, ← List.append_assoc] at whole
    obtain ⟨tokens, last⟩ := List.append_inj' whole rfl
    obtain ⟨before, l, after, cut, rfl⟩ := exists_cut_of_tokensOf tokens
    have behind : pieces (after.flatMap Piece.text) = after := by
      have fit := fitBefore_pieces src.text
      rw [cut] at fit
      exact pieces_eq_iff.mpr ⟨rfl, (fitBefore_append.mp fit).2.2⟩
    rw [cut, tokensOf_append] at tokens
    obtain ⟨here, there⟩ := List.cons.inj (List.append_cancel_left tokens)
    refine ⟨before, l, after.flatMap Piece.text, ?_, rfl, ?_, ?_⟩
    · rw [behind, cut]
    · rw [← here, Cursor.advance_append]
      rfl
    · rw [← there, ← last, behind, Cursor.advance_append]
      rfl

namespace Source

variable {src : Source} {front rest : Text} {n : Int}

theorem tokens_restarted (split : src.text = front ++ rest)
    (counted : n = src.line + front.count Text.lineEnd) :
    (src.restarted front.length n).scan.tokens =
      tokensOf ((Cursor.atLine src.line).advance front) (pieces rest) ++ [.eof src.stop.line] := by
  have line : (Cursor.atLine n).line = ((Cursor.atLine src.line).advance front).line := by
    rw [Cursor.line_advance]
    exact counted
  have stop : ((Cursor.atLine n).advance rest).line = src.stop.line := by
    rw [Source.stop, split, Cursor.advance_append, Cursor.line_advance, line,
      ← Cursor.line_advance]
  show tokensOf (.atLine n) (pieces (src.restarted front.length n).text) ++
    [Token.eof ((Cursor.atLine n).advance (src.restarted front.length n).text).line] = _
  rw [text_restarted split, stop, tokensOf_eq_of_line line]

/-- The diagnostics that are located behind a lexeme are those of the pieces behind it. -/
theorem filter_isFrom_diagnostics {before : List Piece} {l : Lexeme}
    (cut : pieces src.text = before ++ .lexeme l :: pieces rest) :
    src.scan.diagnostics.filter (src.isFrom (before.flatMap Piece.text ++ l.text).length) =
      (marksFrom (before.flatMap Piece.text ++ l.text).length (pieces rest)).map
        src.diagnosticOf := by
  have fit := fitBefore_pieces src.text
  rw [cut] at fit
  have nonempty : 0 < l.text.length := List.length_pos_iff.mpr fit.fits.text_ne_nil
  have inside : (before.flatMap Piece.text ++ l.text).length ≤ src.text.length := by
    rw [text_of_cut cut]
    exact (List.prefix_append _ rest).length_le
  -- the lexeme has no mark, and it is not empty, so it parts the marks
  have marks : marksFrom 0 (pieces src.text) = marksFrom 0 before ++
      marksFrom (before.flatMap Piece.text ++ l.text).length (pieces rest) := by
    rw [cut, marksFrom_append, Nat.zero_add, List.length_append]
    rfl
  have isFrom : (marksFrom 0 (pieces src.text)).filter
        (src.isFrom (before.flatMap Piece.text ++ l.text).length ∘ src.diagnosticOf) =
      (marksFrom 0 (pieces src.text)).filter
        (fun m => decide ((before.flatMap Piece.text ++ l.text).length ≤ m.offset)) :=
    List.filter_congr fun m mem => isFrom_diagnosticOf inside mem
  rw [src.diagnostics_eq_map_marks, List.filter_map, isFrom, marks, List.filter_append,
    List.filter_eq_nil_iff.mpr, List.filter_eq_self.mpr, List.nil_append]
  · intro m mem
    exact decide_eq_true (le_offset_of_mem_marksFrom mem)
  · intro m mem
    have offset := offset_le_of_mem_marksFrom mem
    rw [decide_eq_true_iff, List.length_append]
    omega

/-- **Diagnostics come again behind an offset.** -/
theorem forall₂_restarts (split : src.text = front ++ rest)
    (counted : n = src.line + front.count Text.lineEnd) :
    List.Forall₂ (Diagnostic.Restarts src front.length n)
      ((marksFrom front.length (pieces rest)).map src.diagnosticOf)
      (src.restarted front.length n).scan.diagnostics := by
  rw [diagnostics_eq_map_marks, text_restarted split, ← Nat.add_zero front.length, marksFrom_add,
    List.map_map, List.forall₂_map_left_iff, List.forall₂_map_right_iff, List.forall₂_same]
  intro m _
  exact ⟨rfl, _, _, rfl, rfl, restarts_locationAt split counted m.offset⟩

end Source

/-- **A scan can be restarted behind any token.**  Take a token that is not the end token, and
    let `x` be its extent.  A scan that starts where this extent stops, on the line of the
    token,
    1. finds exactly the tokens that come after this one;
    2. reports, in order, the diagnostics that are located there or behind, with the same
       faults on the same lines, and in the same columns except on the first line, where
       columns are counted from the new start. -/
theorem scan_restart {src : Source} {found later : List Token} {t : Token}
    (split : src.scan.tokens = found ++ t :: later) (inside : t.kind ≠ .eof) :
    ∃ x, (extentsFrom 0 (pieces src.text))[found.length]? = some x ∧ t.Stamped src x ∧
      (src.restarted x.stop t.line).scan.tokens = later ∧
      List.Forall₂ (Diagnostic.Restarts src x.stop t.line)
        (src.scan.diagnostics.filter (src.isFrom x.stop))
        (src.restarted x.stop t.line).scan.diagnostics := by
  obtain ⟨before, l, rest, cut, rfl, rfl, rfl⟩ := Source.exists_cut_of_tokens split inside
  have text := text_of_cut cut
  have fit := fitBefore_pieces src.text
  rw [cut] at fit
  have fits := fit.fits
  have line : ((Cursor.atLine src.line).advance (before.flatMap Piece.text ++ l.text)).line =
      src.line + (before.flatMap Piece.text ++ l.text).count Text.lineEnd :=
    Cursor.line_advance _ _
  refine ⟨⟨(before.flatMap Piece.text).length, (before.flatMap Piece.text ++ l.text).length⟩,
    ?_, ?_, ?_, ?_⟩
  · rw [cut, extentsFrom_append, Nat.zero_add, ← length_extentsFrom _ 0,
      List.getElem?_append_right (Nat.le_refl _), Nat.sub_self, List.length_append]
    rfl
  · exact stamped_token (Piece.fits_lexeme.mp fits).1 fits.text_ne_nil text
  · exact Source.tokens_restarted text line
  · rw [Source.filter_isFrom_diagnostics cut]
    exact Source.forall₂_restarts text line

/-- The token may be a string that goes across a line end: the stray characters behind it are
    two columns further to the left on its last line, and in the same column below. -/
theorem scan_restart_behind_string :
    (Source.scan ⟨"\"a\nb\" # x\n@".toList, "p".toList, 7⟩).tokens =
      [] ++ ⟨.string, "\"a\nb\"".toList, some (.text "a\nb".toList), 8⟩ ::
        [⟨.identifier, ['x'], none, 8⟩, .eof 9] ∧
    Kind.string ≠ .eof ∧
    (Source.scan ⟨" # x\n@".toList, "p".toList, 8⟩).tokens =
      [⟨.identifier, ['x'], none, 8⟩, .eof 9] ∧
    List.Forall₂ (Diagnostic.Restarts ⟨"\"a\nb\" # x\n@".toList, "p".toList, 7⟩ 5 8)
      (Source.scan ⟨"\"a\nb\" # x\n@".toList, "p".toList, 7⟩).diagnostics
      (Source.scan ⟨" # x\n@".toList, "p".toList, 8⟩).diagnostics := by
  have tokens : (Source.scan ⟨"\"a\nb\" # x\n@".toList, "p".toList, 7⟩).tokens =
      [] ++ ⟨.string, "\"a\nb\"".toList, some (.text "a\nb".toList), 8⟩ ::
        [⟨.identifier, ['x'], none, 8⟩, .eof 9] := by decide +kernel
  obtain ⟨⟨start, stop⟩, extent, -, later, diagnostics⟩ := scan_restart tokens (by decide)
  have stops : ((extentsFrom 0 (pieces "\"a\nb\" # x\n@".toList))[0]?).map Extent.stop =
      some 5 := by decide +kernel
  obtain rfl : 5 = stop :=
    Option.some.inj (stops.symm.trans (congrArg (Option.map Extent.stop) extent))
  have restarted : Source.restarted ⟨"\"a\nb\" # x\n@".toList, "p".toList, 7⟩ 5 8 =
      ⟨" # x\n@".toList, "p".toList, 8⟩ := by decide +kernel
  have behind : (Source.scan ⟨"\"a\nb\" # x\n@".toList, "p".toList, 7⟩).diagnostics.filter
        (Source.isFrom ⟨"\"a\nb\" # x\n@".toList, "p".toList, 7⟩ 5) =
      (Source.scan ⟨"\"a\nb\" # x\n@".toList, "p".toList, 7⟩).diagnostics := by
    decide +kernel
  rw [restarted] at later diagnostics
  rw [behind] at diagnostics
  exact ⟨tokens, by decide, later, diagnostics⟩

end Pseudocode

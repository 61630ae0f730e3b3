import Pseudocode.Proofs.Cutting
import Pseudocode.Proofs.Digits
import Pseudocode.Proofs.Placement
import Pseudocode.Proofs.Position

/-!
# Diagnostics in their places

Every diagnostic of a scan points at the truth: at the character that it names, in the
line and column that the text gives this character, under a copy of the line that it
stands on.  The route:

* the faults of a scan are *marks*, offsets with faults, and the diagnostics are the marks
  told by their offsets (`diagnosticsOf_eq_map_marks`).  From here on no cursor is left;
* marks lie on their characters (`Mark.On`) and grow (`pairwise_marksFrom`), and with
  offsets locations grow;
* a diagnostic of a one-line file name shows in three lines, or four with a hint, and its
  pointer stands under its column (`Source.pointsAt_diagnosticAt`).
-/

namespace Pseudocode

/-! ## Marks -/

/-- A fault and the offset at which it is reported. -/
structure Mark where
  offset : Nat
  fault : Fault

/-- The mark of a piece that starts at the offset: a stray character is marked itself, an
    open string where its closing quote is missing, behind its last character. -/
def Piece.mark? (p : Nat) : Piece → Option Mark
  | stray c => some ⟨p, .unexpectedCharacter c⟩
  | openString body => some ⟨p + (openString body).text.length, .unterminatedString⟩
  | _ => none

/-- The marks of pieces of which the first starts at the offset. -/
def marksFrom (p : Nat) : List Piece → List Mark
  | [] => []
  | q :: qs => (q.mark? p).toList ++ marksFrom (p + q.text.length) qs

theorem marksFrom_append (p : Nat) (ps qs : List Piece) :
    marksFrom p (ps ++ qs) =
      marksFrom p ps ++ marksFrom (p + (ps.flatMap Piece.text).length) qs := by
  induction ps generalizing p with
  | nil => rfl
  | cons q ps ih =>
      show _ ++ marksFrom _ (ps ++ qs) = _
      rw [ih, List.flatMap_cons, List.length_append, ← Nat.add_assoc, ← List.append_assoc]
      rfl

/-- Pieces that stand further behind have their marks further behind. -/
theorem marksFrom_add (k p : Nat) (ps : List Piece) :
    marksFrom (k + p) ps = (marksFrom p ps).map fun m => ⟨k + m.offset, m.fault⟩ := by
  induction ps generalizing p with
  | nil => rfl
  | cons q ps ih =>
      show (q.mark? (k + p)).toList ++ marksFrom (k + p + _) ps = _
      rw [Nat.add_assoc, ih]
      cases q with
      | openString body =>
          show (⟨k + p + _, _⟩ : Mark) :: _ = _
          rw [Nat.add_assoc]
          rfl
      | _ => rfl

/-- The diagnostic of a mark. -/
def Source.diagnosticOf (src : Source) (m : Mark) : Diagnostic :=
  src.diagnosticAt m.offset m.fault

/-- The diagnostic of a piece in its place is that of its mark. -/
theorem diagnostic?_eq_map_mark {src : Source} {before : Text} {p : Piece} {ps : List Piece}
    (split : src.text = before ++ (p :: ps).flatMap Piece.text) :
    (⟨p, (Cursor.atLine src.line).advance before, ps⟩ : Placed).diagnostic? src.file =
      (p.mark? before.length).map src.diagnosticOf := by
  cases p with
  | stray c =>
      show some (Cursor.diagnose _ _ _ (lineRest (.stray c :: ps))) = some _
      rw [lineRest_eq, Source.diagnose_advance split]
      rfl
  | openString body =>
      rw [List.flatMap_cons, ← List.append_assoc] at split
      show some (Cursor.diagnose (Cursor.advance _ _) _ _ (lineRest ps)) = some _
      rw [← Cursor.advance_append, lineRest_eq, Source.diagnose_advance split,
        List.length_append]
      rfl
  | _ => rfl

/-- **Diagnostics are marks told by their offsets.** -/
theorem diagnosticsOf_eq_map_marks {src : Source} {before : Text} {ps : List Piece}
    (split : src.text = before ++ ps.flatMap Piece.text) :
    diagnosticsOf src.file ((Cursor.atLine src.line).advance before) ps =
      (marksFrom before.length ps).map src.diagnosticOf := by
  -- what is behind the cursor grows with every piece, what is before it is used up
  induction ps generalizing before with
  | nil => rfl
  | cons p ps ih =>
      have later : src.text = (before ++ p.text) ++ ps.flatMap Piece.text := by
        rw [split, List.flatMap_cons, List.append_assoc]
      rw [diagnosticsOf_cons, diagnostic?_eq_map_mark split, ← Cursor.advance_append, ih later,
        List.length_append]
      show _ = List.map _ ((p.mark? _).toList ++ marksFrom _ ps)
      rw [List.map_append]
      cases p.mark? before.length <;> rfl

/-! ### Marks lie on their characters -/

/-- The mark lies where its fault is: on the character that it names, which is no line end,
    or behind the last character of the text. -/
inductive Mark.On (s : Text) : Mark → Prop
  | character {p : Nat} {c : Char} (at_offset : s[p]? = some c) (inside_line : c ≠ Text.lineEnd) :
      Mark.On s ⟨p, .unexpectedCharacter c⟩
  | behind : Mark.On s ⟨s.length, .unterminatedString⟩

theorem StartsNothing.ne_lineEnd {c : Char} (h : StartsNothing c) : c ≠ Text.lineEnd := by
  rintro rfl
  exact absurd h.1 (by decide)

theorem on_of_mem_marksFrom {before : Text} {ps : List Piece} (fit : FitBefore ps [])
    {m : Mark} (mem : m ∈ marksFrom before.length ps) :
    m.On (before ++ ps.flatMap Piece.text) := by
  induction ps generalizing before with
  | nil => exact absurd mem List.not_mem_nil
  | cons p ps ih =>
      obtain ⟨fits, later⟩ := fit
      rcases List.mem_append.mp mem with here | there
      · cases p with
        | stray c =>
            obtain rfl := Option.mem_some.mp (Option.mem_toList.mp here)
            exact .character (by simp [Piece.text]) fits.1.ne_lineEnd
        | openString body =>
            obtain rfl := Option.mem_some.mp (Option.mem_toList.mp here)
            obtain rfl := FitBefore.nil_of_openString ⟨fits, later⟩
            have length : before.length + (Piece.openString body).text.length =
                (before ++ [Piece.openString body].flatMap Piece.text).length := by
              rw [List.flatMap_singleton, List.length_append]
            rw [length]
            exact .behind
        | _ => exact absurd here List.not_mem_nil
      · rw [← List.length_append] at there
        rw [List.flatMap_cons, ← List.append_assoc]
        exact ih later there

/-! ### Marks grow -/

theorem le_offset_of_mem_marksFrom {p : Nat} {ps : List Piece} {m : Mark}
    (mem : m ∈ marksFrom p ps) : p ≤ m.offset := by
  induction ps generalizing p with
  | nil => exact absurd mem List.not_mem_nil
  | cons q qs ih =>
      rcases List.mem_append.mp mem with here | there
      · cases q with
        | stray c =>
            obtain rfl := Option.mem_some.mp (Option.mem_toList.mp here)
            exact Nat.le_refl p
        | openString body =>
            obtain rfl := Option.mem_some.mp (Option.mem_toList.mp here)
            exact Nat.le_add_right p _
        | _ => exact absurd here List.not_mem_nil
      · have := ih there
        omega

theorem offset_le_of_mem_marksFrom {p : Nat} {ps : List Piece} {m : Mark}
    (mem : m ∈ marksFrom p ps) : m.offset ≤ p + (ps.flatMap Piece.text).length := by
  induction ps generalizing p with
  | nil => exact absurd mem List.not_mem_nil
  | cons q qs ih =>
      rw [List.flatMap_cons, List.length_append]
      rcases List.mem_append.mp mem with here | there
      · cases q with
        | stray c =>
            obtain rfl := Option.mem_some.mp (Option.mem_toList.mp here)
            exact Nat.le_add_right p _
        | openString body =>
            obtain rfl := Option.mem_some.mp (Option.mem_toList.mp here)
            exact Nat.add_le_add_left (Nat.le_add_right _ _) p
        | _ => exact absurd here List.not_mem_nil
      · have := ih there
        omega

/-- The marks of pieces that fit have growing offsets: what follows a stray character
    starts behind it, and nothing follows an open string. -/
theorem pairwise_marksFrom {p : Nat} {ps : List Piece} (fit : FitBefore ps []) :
    (marksFrom p ps).Pairwise (·.offset < ·.offset) := by
  induction ps generalizing p with
  | nil => exact .nil
  | cons q qs ih =>
      obtain ⟨fits, later⟩ := fit
      cases q with
      | stray c =>
          refine List.pairwise_cons.mpr ⟨?_, ih later⟩
          intro m mem
          have := le_offset_of_mem_marksFrom mem
          exact this
      | openString body =>
          obtain rfl := FitBefore.nil_of_openString ⟨fits, later⟩
          exact List.pairwise_singleton _ _
      | _ => exact ih later

/-! ## The shown form -/

theorem Location.lineEnd_not_mem_text {l : Location} (file : Text.lineEnd ∉ l.file) :
    Text.lineEnd ∉ l.text := by
  intro mem
  rw [text, List.append_assoc] at mem
  rcases List.mem_append.mp mem with inFile | mem
  · exact file inFile
  rcases List.mem_cons.mp mem with colon | mem
  · exact absurd colon (by decide)
  rcases List.mem_append.mp mem with inLine | mem
  · exact Text.lineEnd_not_mem_ofInt _ inLine
  by_cases known : 0 < l.column
  · rw [if_pos known] at mem
    rcases List.mem_cons.mp mem with colon | inColumn
    · exact absurd colon (by decide)
    · exact Text.lineEnd_not_mem_ofInt _ inColumn
  · rw [if_neg known] at mem
    exact absurd mem List.not_mem_nil

theorem Fault.lineEnd_not_mem_message {c : Char} (inside_line : c ≠ Text.lineEnd) :
    Text.lineEnd ∉ (Fault.unexpectedCharacter c).message := by
  intro mem
  rcases List.mem_append.mp mem with front | closing
  · rcases List.mem_append.mp front with front | code
    · rcases List.mem_append.mp front with words | mem
      · exact absurd words (by decide)
      · rcases List.mem_cons.mp mem with same | words
        · exact inside_line same.symm
        · exact absurd words (by decide)
    · exact Text.lineEnd_not_mem_hexCapital _ _ code
  · exact absurd closing (by decide)

theorem Diagnostic.splitOn_text {d : Diagnostic} (oneLine : ∀ l ∈ d.lines, Text.lineEnd ∉ l) :
    d.text.splitOn Text.lineEnd = d.lines :=
  List.splitOn_intercalate _ oneLine (List.cons_ne_nil _ _)

/-- A source line as a diagnostic shows it, set in. -/
def Diagnostic.shownLine (line : Text) : Text :=
  List.replicate Diagnostic.indent ' ' ++ line

/-- The line under it that points at an index of it. -/
def Diagnostic.pointer (i : Nat) : Text :=
  List.replicate (Diagnostic.indent + i) ' ' ++ ['^']

/-- The diagnostic points at an offset of the source, which has index `i` on its line: it
    says the line number and the column, it quotes the line, and it shows, line for line,
    a headline, the source line, a pointer under index `i` and the hints. -/
structure Diagnostic.PointsAt (d : Diagnostic) (src : Source) (p i : Nat) (hints : List Text) :
    Prop where
  index : src.text.lineStart p + i = p
  location : d.location = some ⟨src.file, src.line + src.text.lineIndex p, i + 1⟩
  sourceLine : d.sourceLine = some (src.text.lineAt p)
  shown : d.text.splitOn Text.lineEnd =
    d.headline :: shownLine (src.text.lineAt p) :: pointer i :: hints

theorem Text.lineEnd_not_mem_lineAt (s : Text) (p : Nat) : lineEnd ∉ s.lineAt p := by
  intro mem
  exact absurd (List.mem_takeWhile_imp mem) (by decide)

namespace Source

variable {src : Source} {p : Nat} {fault : Fault}

theorem column_locationAt (src : Source) (p : Nat) :
    (src.locationAt p).column = (p - src.text.lineStart p : Nat) + 1 := by
  have start := src.text.lineStart_le p
  show (p : Int) - src.text.lineStart p + 1 = _
  omega

theorem lines_diagnosticAt : (src.diagnosticAt p fault).lines =
    (src.diagnosticAt p fault).headline :: Diagnostic.shownLine (src.text.lineAt p) ::
      Diagnostic.pointer (p - src.text.lineStart p) :: (src.diagnosticAt p fault).advice := by
  have column := src.column_locationAt p
  have excerpt : (src.diagnosticAt p fault).excerpt =
      [Diagnostic.shownLine (src.text.lineAt p),
        Diagnostic.pointer (p - src.text.lineStart p)] := by
    show Diagnostic.shownLine _ :: (if 0 < (src.locationAt p).column then _ else _) = _
    rw [if_pos (by omega), column]
    rfl
  rw [Diagnostic.lines, excerpt]
  rfl

/-- No line of a diagnostic breaks if neither the file name nor the fault does. -/
theorem lineEnd_not_mem_lines (oneLine : Text.lineEnd ∉ src.file)
    (message : Text.lineEnd ∉ fault.message)
    (advice : ∀ l ∈ (src.diagnosticAt p fault).advice, Text.lineEnd ∉ l) :
    ∀ l ∈ (src.diagnosticAt p fault).lines, Text.lineEnd ∉ l := by
  intro l mem
  rw [lines_diagnosticAt] at mem
  rcases List.mem_cons.mp mem with rfl | mem
  · intro mem
    rcases List.mem_append.mp mem with front | mem
    · rcases List.mem_append.mp front with inLocation | words
      · exact Location.lineEnd_not_mem_text oneLine inLocation
      · exact absurd words (by decide)
    · exact message mem
  rcases List.mem_cons.mp mem with rfl | mem
  · intro mem
    rcases List.mem_append.mp mem with blanks | inLine
    · exact absurd (List.eq_of_mem_replicate blanks) (by decide)
    · exact src.text.lineEnd_not_mem_lineAt p inLine
  rcases List.mem_cons.mp mem with rfl | mem
  · intro mem
    rcases List.mem_append.mp mem with blanks | mark
    · exact absurd (List.eq_of_mem_replicate blanks) (by decide)
    · exact absurd mark (by decide)
  · exact advice l mem

/-- An open string is reported with a hint, which is one line. -/
theorem advice_unterminatedString (src : Source) (p : Nat) :
    ∃ hint, (src.diagnosticAt p .unterminatedString).advice = [hint] ∧ Text.lineEnd ∉ hint :=
  ⟨"hint: ".toList ++ "add closing '\"' to complete the string".toList, rfl, by decide⟩

theorem pointsAt_diagnosticAt (oneLine : Text.lineEnd ∉ src.file)
    (message : Text.lineEnd ∉ fault.message)
    (advice : ∀ l ∈ (src.diagnosticAt p fault).advice, Text.lineEnd ∉ l) :
    (src.diagnosticAt p fault).PointsAt src p (p - src.text.lineStart p)
      (src.diagnosticAt p fault).advice where
  index := by
    have := src.text.lineStart_le p
    omega
  location := by
    rw [← column_locationAt]
    rfl
  sourceLine := rfl
  shown := by
    rw [Diagnostic.splitOn_text (lineEnd_not_mem_lines oneLine message advice),
      lines_diagnosticAt]

end Source

/-! ## The diagnostics of a scan -/

theorem Source.diagnostics_eq_map_marks (src : Source) :
    src.scan.diagnostics = (marksFrom 0 (pieces src.text)).map src.diagnosticOf :=
  @diagnosticsOf_eq_map_marks src [] _ (flatMap_text_pieces src.text).symm

theorem on_of_mem_marks {s : Text} {m : Mark} (mem : m ∈ marksFrom 0 (pieces s)) : m.On s := by
  have on := @on_of_mem_marksFrom [] _ (fitBefore_pieces s) m mem
  rwa [flatMap_text_pieces] at on

theorem Mark.On.offset_le {s : Text} {m : Mark} (on : m.On s) : m.offset ≤ s.length := by
  cases on with
  | character at_offset =>
      obtain ⟨inside, -⟩ := List.getElem?_eq_some_iff.mp at_offset
      exact Nat.le_of_lt inside
  | behind => exact Nat.le_refl _

/-- The location list of a scan grows, since its marks do. -/
theorem pairwise_location_diagnostics (src : Source) :
    (src.scan.diagnostics.filterMap Diagnostic.location).Pairwise Location.Precedes := by
  have locations : src.scan.diagnostics.filterMap Diagnostic.location =
      (marksFrom 0 (pieces src.text)).map fun m => src.locationAt m.offset := by
    rw [src.diagnostics_eq_map_marks, List.filterMap_map, ← List.filterMap_eq_map]
    rfl
  rw [locations, List.pairwise_map]
  refine (pairwise_marksFrom (fitBefore_pieces src.text)).imp_of_mem ?_
  intro m n _ mem less
  exact src.locationAt_precedes less (on_of_mem_marks mem).offset_le

/-- Behind an unterminated string nothing is reported. -/
theorem unterminatedString_last {src : Source} {before after : Diagnostics} {d : Diagnostic}
    (split : src.scan.diagnostics = before ++ d :: after) (fault : d.fault = .unterminatedString) :
    after = [] := by
  rw [src.diagnostics_eq_map_marks] at split
  obtain ⟨ms, ns, marks, -, rest⟩ := List.map_eq_append_iff.mp split
  obtain ⟨m, later, rfl, rfl, rfl⟩ := List.map_eq_cons_iff.mp rest
  have grow := pairwise_marksFrom (p := 0) (fitBefore_pieces src.text)
  have on : ∀ n ∈ m :: later, n.On src.text := by
    intro n mem
    exact on_of_mem_marks (marks ▸ List.mem_append_right ms mem)
  rw [marks] at grow
  cases later with
  | nil => rfl
  | cons n later =>
      have less := List.rel_of_pairwise_cons (List.pairwise_append.mp grow).2.1 List.mem_cons_self
      have bound := (on n (List.mem_cons_of_mem m List.mem_cons_self)).offset_le
      -- `m` lies at the end of the text, where nothing is further to the right
      cases on m List.mem_cons_self with
      | character => exact nomatch fault
      | behind => exact absurd less (Nat.not_lt.mpr bound)

/-- **Diagnostics point at the truth.**  If the file name is one line, then
    1. a diagnostic of an unexpected character has an offset at which the text has this
       character; it gives the line and the column of that offset, quotes its line, in
       which the column holds the character, and shows in three lines, the last of which
       points at the character in the line above;
    2. a diagnostic of an unterminated string points in the same way behind the last
       character of the text, and shows a hint in a fourth line;
    3. locations grow from each diagnostic to the next, and an unterminated string is
       the last. -/
theorem diagnostics_pointAt (src : Source) (oneLine : Text.lineEnd ∉ src.file) :
    (∀ d ∈ src.scan.diagnostics,
      (∃ p i c, d.fault = .unexpectedCharacter c ∧ src.text[p]? = some c ∧
        d.PointsAt src p i [] ∧ (src.text.lineAt p)[i]? = some c ∧
        (Diagnostic.shownLine (src.text.lineAt p))[Diagnostic.indent + i]? = some c) ∨
      (∃ i hint, d.fault = .unterminatedString ∧ d.PointsAt src src.text.length i [hint] ∧
        src.text.lineAt src.text.length = src.text.rtakeWhile (· != Text.lineEnd) ∧
        (Diagnostic.shownLine (src.text.lineAt src.text.length)).length =
          Diagnostic.indent + i)) ∧
    (src.scan.diagnostics.filterMap Diagnostic.location).Pairwise Location.Precedes ∧
    ∀ before d after, src.scan.diagnostics = before ++ d :: after →
      d.fault = .unterminatedString → after = [] := by
  refine ⟨?_, pairwise_location_diagnostics src, fun _ _ _ => unterminatedString_last⟩
  intro d mem
  rw [src.diagnostics_eq_map_marks] at mem
  obtain ⟨m, marked, rfl⟩ := List.mem_map.mp mem
  cases on_of_mem_marks marked with
  | @character p c at_offset inside_line =>
      have held := Text.getElem?_lineAt at_offset inside_line
      refine Or.inl ⟨p, _, c, rfl, at_offset, ?_, held, ?_⟩
      · exact Source.pointsAt_diagnosticAt oneLine (Fault.lineEnd_not_mem_message inside_line) nofun
      · rw [Diagnostic.shownLine, List.getElem?_append_right (by simp)]
        simpa using held
  | behind =>
      have message : Text.lineEnd ∉ Fault.unterminatedString.message := by decide
      obtain ⟨hint, advice, breakless⟩ := src.advice_unterminatedString src.text.length
      refine Or.inr ⟨src.text.length - src.text.lineStart src.text.length, hint, rfl, ?_,
        Text.lineAt_length _, ?_⟩
      · have points := @Source.pointsAt_diagnosticAt src src.text.length _ oneLine message
        rw [advice] at points
        exact points fun l mem => List.mem_singleton.mp mem ▸ breakless
      · rw [Diagnostic.shownLine, List.length_append, Text.length_lineAt_length,
          List.length_replicate]

/-- A stray character on line seven and a string that is still open on line eight. -/
theorem diagnostics_pointAt_two_lines :
    Text.lineEnd ∉ "p".toList ∧
    (Source.scan ⟨"# \"a\nb".toList, "p".toList, 7⟩).diagnostics.map Diagnostic.fault =
      [.unexpectedCharacter '#', .unterminatedString] ∧
    (Source.scan ⟨"# \"a\nb".toList, "p".toList, 7⟩).diagnostics.filterMap Diagnostic.location =
      [⟨"p".toList, 7, 1⟩, ⟨"p".toList, 8, 2⟩] ∧
    ((Source.scan ⟨"# \"a\nb".toList, "p".toList, 7⟩).diagnostics.filterMap
      Diagnostic.location).Pairwise Location.Precedes :=
  ⟨by decide, by decide +kernel, by decide +kernel,
    (diagnostics_pointAt ⟨"# \"a\nb".toList, "p".toList, 7⟩ (by decide)).2.1⟩

end Pseudocode

import Mathlib.Data.List.DropRight
import Pseudocode.Scan

/-!
# Position

Lines and columns without a cursor.  An offset into a text has a line (so many line ends
before it), its line has a start and a text, and all three are read off the text as a
whole.  A cursor that has passed the text before the offset keeps another score, step by
step, and knows the same (`location_advance`, `lineWith_advance`): hence a location that
a cursor gives is the truth about the text.

Positions grow with offsets: a later offset is on a later line, or further to the right
(`Source.locationAt_precedes`).
-/

namespace Pseudocode

namespace Text

/-- The line of an offset, counted from zero: how many line ends stand before it. -/
def lineIndex (s : Text) (p : Nat) : Nat :=
  (s.take p).count lineEnd

/-- The offset of the first character of the line of an offset: the place behind the last
    line end before it. -/
def lineStart (s : Text) (p : Nat) : Nat :=
  ((s.take p).rdropWhile (· != lineEnd)).length

/-- The line of an offset as text: from its start up to the next line end. -/
def lineAt (s : Text) (p : Nat) : Text :=
  (s.drop (s.lineStart p)).takeWhile (· != lineEnd)

theorem lineStart_le (s : Text) (p : Nat) : s.lineStart p ≤ p :=
  Nat.le_trans (List.rdropWhile_prefix ..).length_le (List.length_take_le ..)

/-! ## Offsets at a seam

    Where a text is two texts set side by side, the offset of the seam has the line that
    the first text ends with. -/

variable (before rest : Text)

theorem lineIndex_append : lineIndex (before ++ rest) before.length = before.count lineEnd := by
  rw [lineIndex, List.take_left]

theorem lineStart_append : lineStart (before ++ rest) before.length +
    (before.rtakeWhile (· != lineEnd)).length = before.length := by
  rw [lineStart, List.take_left, ← List.length_append, List.rdropWhile_append_rtakeWhile]

theorem drop_lineStart_append : (before ++ rest).drop (lineStart (before ++ rest) before.length) =
    before.rtakeWhile (· != lineEnd) ++ rest := by
  have cut := List.rdropWhile_append_rtakeWhile (p := (· != lineEnd)) (l := before)
  calc (before ++ rest).drop (lineStart (before ++ rest) before.length)
      = (before.rdropWhile (· != lineEnd) ++ (before.rtakeWhile (· != lineEnd) ++ rest)).drop
          (before.rdropWhile (· != lineEnd)).length := by
        rw [lineStart, List.take_left, ← List.append_assoc, cut]
    _ = before.rtakeWhile (· != lineEnd) ++ rest := List.drop_left

theorem lineAt_append : lineAt (before ++ rest) before.length =
    before.rtakeWhile (· != lineEnd) ++ rest.takeWhile (· != lineEnd) := by
  have inside : ∀ c ∈ before.rtakeWhile (· != lineEnd), (c != lineEnd) = true :=
    fun _ mem => List.mem_rtakeWhile_imp (p := (· != lineEnd)) mem
  rw [lineAt, drop_lineStart_append, List.takeWhile_append_of_pos inside]

/-- A character that is no line end stands in its line at the index that its offset has
    from the start of the line. -/
theorem getElem?_lineAt {s : Text} {p : Nat} {c : Char} (at_offset : s[p]? = some c)
    (inside_line : c ≠ lineEnd) : (s.lineAt p)[p - s.lineStart p]? = some c := by
  obtain ⟨before, rest, rfl, rfl⟩ : ∃ before rest, s = before ++ c :: rest ∧ before.length = p := by
    obtain ⟨inside, rfl⟩ := List.getElem?_eq_some_iff.mp at_offset
    refine ⟨s.take p, s.drop (p + 1), ?_, by simp; omega⟩
    rw [List.getElem_cons_drop, List.take_append_drop]
  have start := lineStart_append before (c :: rest)
  have index : before.length - lineStart (before ++ c :: rest) before.length =
      (before.rtakeWhile (· != lineEnd)).length := by omega
  rw [index, lineAt_append, List.takeWhile_cons_of_pos (by simpa using inside_line)]
  simp

/-- The line of the end of a text is what follows its last line end. -/
theorem lineAt_length (s : Text) : s.lineAt s.length = s.rtakeWhile (· != lineEnd) := by
  have := lineAt_append s []
  rwa [List.append_nil, List.takeWhile_nil, List.append_nil] at this

theorem length_lineAt_length (s : Text) :
    (s.lineAt s.length).length = s.length - s.lineStart s.length := by
  have start := lineStart_append s []
  rw [List.append_nil] at start
  rw [lineAt_length]
  omega

end Text

/-! ## Cursors keep the score -/

theorem Cursor.advance_atLine (line : Int) (s : Text) :
    (Cursor.atLine line).advance s =
      ⟨line + s.count Text.lineEnd, (s.rtakeWhile (· != Text.lineEnd)).reverse⟩ := by
  induction s using List.reverseRecOn with
  | nil => simp [Cursor.atLine]
  | append_singleton s c ih =>
      rw [Cursor.advance_append, ih]
      show Cursor.step _ c = _
      by_cases ends : c = Text.lineEnd
      · subst ends
        rw [Cursor.step, if_pos rfl, List.rtakeWhile_concat_neg _ _ _ (by simp)]
        simp
        omega
      · rw [Cursor.step, if_neg ends, List.rtakeWhile_concat_pos _ _ _ (by simpa using ends)]
        simp [ends]

/-! ## Sources -/

namespace Source

/-- The location of an offset into a source: the line number counts on from the first
    line, the column counts from one at the start of the line. -/
def locationAt (src : Source) (p : Nat) : Location :=
  ⟨src.file, src.line + src.text.lineIndex p, (p : Int) - src.text.lineStart p + 1⟩

/-- The diagnostic of a fault at an offset. -/
def diagnosticAt (src : Source) (p : Nat) (fault : Fault) : Diagnostic :=
  ⟨fault, some (src.locationAt p), some (src.text.lineAt p)⟩

variable {src : Source} {before rest : Text}

theorem location_advance (split : src.text = before ++ rest) :
    ((Cursor.atLine src.line).advance before).location src.file =
      src.locationAt before.length := by
  have start := Text.lineStart_append before rest
  rw [locationAt, split, Text.lineIndex_append, Cursor.advance_atLine]
  simp only [Cursor.location, Cursor.column, List.length_reverse, Location.mk.injEq, true_and]
  omega

theorem lineWith_advance (split : src.text = before ++ rest) :
    ((Cursor.atLine src.line).advance before).lineWith (rest.takeWhile (· != Text.lineEnd)) =
      src.text.lineAt before.length := by
  rw [split, Text.lineAt_append, Cursor.advance_atLine, Cursor.lineWith, List.reverse_reverse]

/-- A cursor diagnoses what the offset of the text that it has passed tells. -/
theorem diagnose_advance (split : src.text = before ++ rest) (fault : Fault) :
    ((Cursor.atLine src.line).advance before).diagnose src.file fault
      (rest.takeWhile (· != Text.lineEnd)) = src.diagnosticAt before.length fault := by
  rw [Cursor.diagnose, location_advance split, lineWith_advance split, diagnosticAt]

end Source

/-! ## Positions grow -/

/-- One location comes before the other in reading order. -/
def Location.Precedes (a b : Location) : Prop :=
  a.line < b.line ∨ a.line = b.line ∧ a.column < b.column

/-- Text without a line end does not lead to another line. -/
theorem Text.lineStart_append_of_not_mem {before between : Text} (rest : Text)
    (h : Text.lineEnd ∉ between) :
    Text.lineStart (before ++ between ++ rest) (before ++ between).length =
      Text.lineStart (before ++ between ++ rest) before.length := by
  have inside : ∀ c ∈ between.reverse, (c != Text.lineEnd) = true :=
    fun _ mem => bne_of_mem h (List.mem_reverse.mp mem)
  rw [lineStart, lineStart, List.take_left, List.append_assoc, List.take_left, List.rdropWhile,
    List.rdropWhile, List.reverse_append, List.dropWhile_append_of_pos inside]

theorem Text.exists_cuts {s : Text} {p q : Nat} (less : p < q) (inside : q ≤ s.length) :
    ∃ before between rest, s = before ++ between ++ rest ∧ before.length = p ∧
      (before ++ between).length = q := by
  refine ⟨s.take p, (s.drop p).take (q - p), s.drop q, ?_, ?_, ?_⟩
  · have later : s.drop q = (s.drop p).drop (q - p) := by
      rw [List.drop_drop, Nat.add_sub_cancel' (Nat.le_of_lt less)]
    rw [later, List.append_assoc, List.take_append_drop, List.take_append_drop]
  · rw [List.length_take]
    omega
  · rw [List.length_append, List.length_take, List.length_take, List.length_drop]
    omega

/-- **Positions grow with offsets**: a later offset is on a later line, or on the same line
    and further to the right. -/
theorem Source.locationAt_precedes (src : Source) {p q : Nat} (less : p < q)
    (inside : q ≤ src.text.length) : (src.locationAt p).Precedes (src.locationAt q) := by
  obtain ⟨before, between, rest, split, rfl, rfl⟩ := Text.exists_cuts less inside
  have lineP : src.text.lineIndex before.length = before.count Text.lineEnd := by
    rw [split, List.append_assoc, Text.lineIndex_append]
  have lineQ : src.text.lineIndex (before ++ between).length =
      before.count Text.lineEnd + between.count Text.lineEnd := by
    rw [split, Text.lineIndex_append, List.count_append]
  -- a line end between the offsets decides by lines, else the columns decide
  by_cases ends : Text.lineEnd ∈ between
  · left
    have := List.count_pos_iff.mpr ends
    simp only [locationAt, lineP, lineQ]
    omega
  · right
    have none := List.count_eq_zero.mpr ends
    have start : src.text.lineStart (before ++ between).length =
        src.text.lineStart before.length := by
      rw [split, Text.lineStart_append_of_not_mem rest ends]
    simp only [locationAt, lineP, lineQ, start]
    omega

theorem Location.Precedes.not_symm {a b : Location} (h : a.Precedes b) : ¬ b.Precedes a := by
  unfold Precedes at h ⊢
  omega

/-- Offsets and their locations are in the same order. -/
theorem Source.locationAt_precedes_iff (src : Source) {p q : Nat} (insideP : p ≤ src.text.length)
    (insideQ : q ≤ src.text.length) :
    (src.locationAt p).Precedes (src.locationAt q) ↔ p < q := by
  constructor
  · intro precedes
    refine Nat.lt_of_not_le fun le => ?_
    rcases Nat.lt_or_eq_of_le le with less | rfl
    · exact precedes.not_symm (src.locationAt_precedes less insideP)
    · exact precedes.not_symm precedes
  · intro less
    exact src.locationAt_precedes less insideQ

end Pseudocode

import Pseudocode.Proofs.Limits

/-!
# Labels

The name of a source and the number of its first line are labels.  They stand in line stamps
and in locations, and nothing depends on them but whether a location can be written: the same
text under another name, `k` lines further down, has the same scan with other labels, unless a
diagnostic comes to a line whose number is too long (`scan_relabelled`, and
`scan?_ne_relabelled_huge_line` for such a number).  The route:

* a cursor that starts `k` lines further down stays `k` lines further down, and tokens see
  nothing of a cursor but its line (`tokensOf_down`);
* diagnostics are marks told by their offsets, and marks belong to the text.  Only the
  telling reads the labels (`Source.diagnosticAt_relabelled`);
* the columns stay as they are, so if the locations can be written under the first labels, it is
  the new line numbers that decide (`writable_relabelled_iff`).
-/

namespace Pseudocode

/-! ## Other labels -/

/-- The token `k` lines further down. -/
def Token.down (k : Int) (t : Token) : Token :=
  { t with line := t.line + k }

/-- The location in the file of that name, `k` lines further down in the same column. -/
def Location.relabelled (file : Text) (k : Int) (l : Location) : Location :=
  ⟨file, l.line + k, l.column⟩

/-- The diagnostic with another location.  The fault stays, and with it the character that it
    names, its message and its hint, and so does the source line. -/
def Diagnostic.relabelled (file : Text) (k : Int) (d : Diagnostic) : Diagnostic :=
  { d with location := d.location.map (Location.relabelled file k) }

/-- The scan under another name, `k` lines further down. -/
def Scan.relabelled (file : Text) (k : Int) (s : Scan) : Scan :=
  ⟨file, s.tokens.map (Token.down k), s.diagnostics.map (Diagnostic.relabelled file k)⟩

/-- What a token is apart from its line. -/
def Token.unstamped (t : Token) : Kind × Text × Option Literal :=
  (t.kind, t.lexeme, t.literal)

/-- What a diagnostic says apart from its location. -/
def Diagnostic.unlocated (d : Diagnostic) : Fault × Option Text :=
  (d.fault, d.sourceLine)

/-! ## Scans under other labels -/

theorem tokensOf_down {cur cur' : Cursor} {k : Int} (down : cur'.line = cur.line + k)
    (ps : List Piece) : tokensOf cur' ps = (tokensOf cur ps).map (Token.down k) := by
  induction ps generalizing cur cur' with
  | nil => rfl
  | cons p ps ih =>
      have behind : (cur'.advance p.text).line = (cur.advance p.text).line + k := by
        rw [Cursor.line_advance, Cursor.line_advance, down]
        omega
      have later := ih behind
      cases p with
      | lexeme l =>
          have token : l.token (cur'.advance l.text).line =
              (l.token (cur.advance l.text).line).down k := congrArg l.token behind
          exact List.cons_eq_cons.mpr ⟨token, later⟩
      | _ => exact later

namespace Source

variable (s f g : Text) (n k : Int)

theorem tokens_relabelled : (Source.scan ⟨s, g, n + k⟩).tokens =
    (Source.scan ⟨s, f, n⟩).tokens.map (Token.down k) := by
  have last : (Source.stop ⟨s, g, n + k⟩).line = (Source.stop ⟨s, f, n⟩).line + k := by
    rw [stop, stop, Cursor.line_advance, Cursor.line_advance]
    exact Int.add_right_comm n k (s.count Text.lineEnd)
  show tokensOf (.atLine (n + k)) (pieces s) ++ [Token.eof (Source.stop ⟨s, g, n + k⟩).line] =
    (tokensOf (.atLine n) (pieces s) ++ [Token.eof (Source.stop ⟨s, f, n⟩).line]).map
      (Token.down k)
  rw [List.map_append, @tokensOf_down (.atLine n) (.atLine (n + k)) k rfl, last]
  rfl

theorem diagnosticAt_relabelled (p : Nat) (fault : Fault) :
    diagnosticAt ⟨s, g, n + k⟩ p fault =
      (diagnosticAt ⟨s, f, n⟩ p fault).relabelled g k := by
  have line : n + k + (s.lineIndex p : Int) = n + s.lineIndex p + k := by omega
  rw [diagnosticAt, locationAt, line]
  rfl

theorem diagnostics_relabelled : (Source.scan ⟨s, g, n + k⟩).diagnostics =
    (Source.scan ⟨s, f, n⟩).diagnostics.map (Diagnostic.relabelled g k) := by
  rw [diagnostics_eq_map_marks, diagnostics_eq_map_marks, List.map_map]
  exact List.map_congr_left fun m _ => diagnosticAt_relabelled s f g n k m.offset m.fault

/-- What is found under other labels. -/
theorem scan_down : Source.scan ⟨s, g, n + k⟩ = (Source.scan ⟨s, f, n⟩).relabelled g k := by
  show (⟨g, (Source.scan ⟨s, g, n + k⟩).tokens, (Source.scan ⟨s, g, n + k⟩).diagnostics⟩ :
    Scan) = _
  rw [tokens_relabelled s f g n k, diagnostics_relabelled s f g n k]
  rfl

end Source

theorem writable_relabelled_iff {ds : Diagnostics} (writable : ds.Writable) (file : Text)
    (k : Int) :
    Diagnostics.Writable (ds.map (Diagnostic.relabelled file k)) ↔
      ∀ d ∈ ds, ∀ l ∈ d.location, (l.line + k).natAbs < 10 ^ Text.digitLimit := by
  constructor
  · intro moved d mem l located
    have located' : l.relabelled file k ∈ (d.relabelled file k).location :=
      Option.mem_map_of_mem _ located
    exact (Location.isWritable_iff.mp (moved _ (List.mem_map_of_mem mem) _ located')).1
  · intro short d' mem' l' located'
    obtain ⟨d, mem, rfl⟩ := List.mem_map.mp mem'
    obtain ⟨l, located, rfl⟩ := Option.map_eq_some_iff.mp located'
    have column := (Location.isWritable_iff.mp (writable d mem l located)).2
    exact Location.isWritable_iff.mpr ⟨short d mem l located, column⟩

/-- **The name and the first line number of a source are labels.**  Take a source whose scan is
    carried out.
    1. Under another name and `k` lines further down, with `k` of either sign, its text has the
       same scan with other labels: the same tokens with `k` added to every line, the line
       of the end token included, and the same diagnostics in the same columns, with the other
       name and with `k` added to every line.  The scan is carried out unless a diagnostic comes
       to a line whose number is too long to be written, and then it breaks off.  So if there is
       no diagnostic, every `k` will do.
    2. Hence whatever the two names and line numbers are, if both scans are carried out, then the
       tokens differ in their lines only and the diagnostics in their locations only, and in
       particular there are errors under both labels or under none. -/
theorem scan_relabelled (s f g : Text) (n : Int) {scan : Scan}
    (done : Source.scan? ⟨s, f, n⟩ = .ok scan) :
    (∀ k : Int,
      ((∀ d ∈ scan.diagnostics, ∀ l ∈ d.location,
          (l.line + k).natAbs < 10 ^ Text.digitLimit) →
        Source.scan? ⟨s, g, n + k⟩ = .ok (scan.relabelled g k)) ∧
      ((∃ d ∈ scan.diagnostics, ∃ l ∈ d.location,
          10 ^ Text.digitLimit ≤ (l.line + k).natAbs) →
        Source.scan? ⟨s, g, n + k⟩ = .error .tooManyDigits)) ∧
    ∀ (m : Int) (scan' : Scan), Source.scan? ⟨s, g, m⟩ = .ok scan' →
      scan'.tokens.map Token.unstamped = scan.tokens.map Token.unstamped ∧
      scan'.diagnostics.map Diagnostic.unlocated = scan.diagnostics.map Diagnostic.unlocated ∧
      scan'.hasErrors = scan.hasErrors := by
  obtain ⟨rfl, writable⟩ := Source.scan?_eq_ok_iff.mp done
  have decided (k : Int) :
      (Source.scan ⟨s, g, n + k⟩).diagnostics.Writable ↔
        ∀ d ∈ (Source.scan ⟨s, f, n⟩).diagnostics, ∀ l ∈ d.location,
          (l.line + k).natAbs < 10 ^ Text.digitLimit := by
    rw [Source.diagnostics_relabelled s f g n k]
    exact writable_relabelled_iff writable g k
  refine ⟨fun k => ⟨?_, ?_⟩, ?_⟩
  · intro short
    rw [Source.scan?_of_writable ((decided k).mpr short), Source.scan_down s f g n k]
  · rintro ⟨d, mem, l, located, long⟩
    refine Source.scan?_of_not_writable fun writable => ?_
    exact Nat.not_lt.mpr long ((decided k).mp writable d mem l located)
  · intro m scan' done'
    obtain ⟨rfl, -⟩ := Source.scan?_eq_ok_iff.mp done'
    obtain ⟨k, rfl⟩ : ∃ k, m = n + k := ⟨m - n, by omega⟩
    rw [Source.scan_down s f g n k]
    refine ⟨?_, ?_, ?_⟩
    · exact List.map_map
    · exact List.map_map
    · exact congrArg not List.isEmpty_map

/-- A stray character and an open string over two lines, from line zero to a negative line, and to
    one whose number is too long. -/
theorem scan_relabelled_stray_and_open :
    ∃ scan, Source.scan? ⟨"a #\n\"".toList, "q".toList, 0⟩ = .ok scan ∧
      scan.diagnostics.length = 2 ∧
      Source.scan? ⟨"a #\n\"".toList, "p".toList, 0 + -7⟩ =
        .ok (scan.relabelled "p".toList (-7)) ∧
      Source.scan? ⟨"a #\n\"".toList, "p".toList, 0 + 10 ^ Text.digitLimit⟩ =
        .error .tooManyDigits ∧
      ∃ scan', Source.scan? ⟨"a #\n\"".toList, "p".toList, 40⟩ = .ok scan' ∧
        scan'.tokens.map Token.unstamped = scan.tokens.map Token.unstamped ∧
        scan'.diagnostics.map Diagnostic.unlocated = scan.diagnostics.map Diagnostic.unlocated ∧
        scan'.hasErrors = scan.hasErrors := by
  have done := @Source.scan?_of_near ⟨"a #\n\"".toList, "q".toList, 0⟩ (by decide +kernel)
  have found : (Source.scan ⟨"a #\n\"".toList, "q".toList, 0⟩).diagnostics =
      [⟨.unexpectedCharacter '#', some ⟨"q".toList, 0, 3⟩, some "a #".toList⟩,
        ⟨.unterminatedString, some ⟨"q".toList, 1, 2⟩, some "\"".toList⟩] := by
    decide +kernel
  have done' := @Source.scan?_of_near ⟨"a #\n\"".toList, "p".toList, 40⟩ (by decide +kernel)
  obtain ⟨moved, unmoved⟩ := scan_relabelled _ _ "p".toList _ done
  rw [found] at moved
  refine ⟨_, done, congrArg List.length found, (moved (-7)).1 ?_,
    (moved (10 ^ Text.digitLimit)).2 ⟨_, List.mem_cons_self, _, rfl, ?_⟩,
    _, done', unmoved 40 _ done'⟩
  · decide +kernel
  · generalize Text.digitLimit = limit
    simp [Int.natAbs_pow]

/-- Under a first line number that is just short enough, the scan of a stray character on the
    second line breaks off, so it is not the scan from line one with other labels. -/
theorem scan?_ne_relabelled_huge_line :
    Source.scan? ⟨"\n#".toList, defaultFile, 1 + (10 ^ Text.digitLimit - 2)⟩ =
      .error .tooManyDigits ∧
    Source.scan? ⟨"\n#".toList, defaultFile, 1 + (10 ^ Text.digitLimit - 2)⟩ ≠
      Scan.relabelled defaultFile (10 ^ Text.digitLimit - 2) <$>
        Source.scan? ⟨"\n#".toList, defaultFile, 1⟩ := by
  have done := @Source.scan?_of_near ⟨"\n#".toList, defaultFile, 1⟩ (by decide +kernel)
  have found : (Source.scan ⟨"\n#".toList, defaultFile, 1⟩).diagnostics =
      [⟨.unexpectedCharacter '#', some ⟨defaultFile, 2, 1⟩, some "#".toList⟩] := by
    decide +kernel
  obtain ⟨-, writable⟩ := Source.scan?_eq_ok_iff.mp done
  have long : ¬ (Source.scan
      ⟨"\n#".toList, defaultFile, 1 + (10 ^ Text.digitLimit - 2)⟩).diagnostics.Writable := by
    rw [Source.diagnostics_relabelled _ defaultFile, writable_relabelled_iff writable, found]
    intro short
    have second := short _ List.mem_cons_self _ rfl
    -- The power stays as it is: to unify with it would be to compute it.
    generalize Text.digitLimit = limit at second
    rw [show (2 : Int) + (10 ^ limit - 2) = 10 ^ limit by omega, Int.natAbs_pow] at second
    exact Nat.lt_irrefl _ second
  rw [Source.scan?_of_not_writable long, done]
  exact ⟨rfl, nofun⟩

end Pseudocode

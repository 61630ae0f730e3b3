import Pseudocode.Proofs.Encoding
import Pseudocode.Session

/-!
# Texts in files

A text can be put into a file in three ways, one for each way to end a line, and it is read back
from all three (`Source.ofBytes_encode_withLineEnds`).  So the scan of a file is the scan of the
text that was put there, and a session collects the same from both.  Bytes that encode no text
are refused, and the session stays as it was (`scanFile_tells_text`).
-/

namespace Pseudocode

/-! ## Line endings -/

/-- The ways to end a line in a file. -/
inductive LineEnding where
  | lf
  | crlf
  | cr
deriving DecidableEq

/-- What stands at the end of a line. -/
def LineEnding.text : LineEnding → Text
  | lf => ['\n']
  | crlf => ['\r', '\n']
  | cr => ['\r']

namespace Text

/-- The text with its line ends written in the given way. -/
def withLineEnds (e : LineEnding) (s : Text) : Text :=
  s.flatMap fun c => if c = lineEnd then e.text else [c]

theorem withLineEnds_lineEnd_cons (e : LineEnding) (s : Text) :
    withLineEnds e (lineEnd :: s) = e.text ++ withLineEnds e s := by
  rw [withLineEnds, List.flatMap_cons, if_pos rfl]
  rfl

theorem withLineEnds_cons {c : Char} (inside_line : c ≠ lineEnd) (e : LineEnding) (s : Text) :
    withLineEnds e (c :: s) = c :: withLineEnds e s := by
  rw [withLineEnds, List.flatMap_cons, if_neg inside_line]
  rfl

theorem unifyLineEnds_cons {c : Char} (no_cr : c ≠ '\r') (s : Text) :
    unifyLineEnds (c :: s) = c :: unifyLineEnds s := by
  rw [unifyLineEnds]
  · exact fun _ cr _ => no_cr cr
  · exact no_cr

/-- A CR with no LF behind it is a line end of its own. -/
theorem unifyLineEnds_cr {s : Text} (alone : s.head? ≠ some '\n') :
    unifyLineEnds ('\r' :: s) = lineEnd :: unifyLineEnds s := by
  rw [unifyLineEnds]
  rintro rest rfl
  exact alone rfl

/-- Where lines end in CR, no LF stands behind one. -/
theorem head?_withLineEnds_cr (s : Text) : (withLineEnds .cr s).head? ≠ some '\n' := by
  cases s with
  | nil => exact nofun
  | cons c s =>
      by_cases ends : c = lineEnd
      · subst ends
        rw [withLineEnds_lineEnd_cons]
        exact fun same => absurd (Option.some.inj same) (by decide)
      · rw [withLineEnds_cons ends]
        exact fun same => ends (Option.some.inj same)

/-- **Line ends are read alike**, whichever way they are written. -/
theorem unifyLineEnds_withLineEnds (e : LineEnding) {s : Text} (no_cr : '\r' ∉ s) :
    (withLineEnds e s).unifyLineEnds = s := by
  induction s with
  | nil => rfl
  | cons c s ih =>
      have rest := ih fun mem => no_cr (List.mem_cons_of_mem c mem)
      by_cases ends : c = lineEnd
      · subst ends
        rw [withLineEnds_lineEnd_cons]
        cases e with
        | lf => exact (unifyLineEnds_cons (by decide) _).trans (congrArg (lineEnd :: ·) rest)
        | crlf => exact congrArg (lineEnd :: ·) rest
        | cr =>
            have alone := unifyLineEnds_cr (head?_withLineEnds_cr s)
            exact alone.trans (congrArg (lineEnd :: ·) rest)
      · have other : c ≠ '\r' := fun cr => no_cr (cr ▸ List.mem_cons_self)
        rw [withLineEnds_cons ends, unifyLineEnds_cons other, rest]

end Text

/-! ## Reading and scanning -/

/-- A text is read back from the bytes that encode it, whichever way its lines end. -/
theorem Source.ofBytes_encode_withLineEnds (e : LineEnding) {u : Text} (no_cr : '\r' ∉ u)
    (file : Text) :
    Source.ofBytes (Utf8.encode (u.withLineEnds e)) file = .ok (.ofText u file) := by
  rw [Source.ofBytes_encode, Text.unifyLineEnds_withLineEnds e no_cr]

theorem FileTree.scan_of_read {tree : FileTree} {path : Text} {bytes : List UInt8}
    (found : tree.read path = .ok bytes) :
    tree.scan path = Source.scan <$> Source.ofBytes bytes path := by
  rw [scan, found]
  show (Source.ofBytes bytes path >>= fun source => pure source.scan) = _
  cases Source.ofBytes bytes path <;> rfl

/-- **The scan of a file is the scan of the text in it**, and a session takes both alike.
    1. A text without CR may be put into a file with any of the three line endings: the scan of
       the file is the scan of the text under the path as its name, with the same tokens and
       the same diagnostics, and the session collects what it collects from the text.
    2. Bytes that encode no text are refused as undecodable, and the session stays as it was. -/
theorem scanFile_tells_text (s : Session) {tree : FileTree} {path : Text} {bytes : List UInt8}
    (found : tree.read path = .ok bytes) :
    (∀ (u : Text) (e : LineEnding), '\r' ∉ u → bytes = Utf8.encode (u.withLineEnds e) →
      tree.scan path = .ok (Source.ofText u path).scan ∧
      s.scanFile tree path =
        (.ok (Source.ofText u path).scan, (s.step (.scan (.ofText u path))).2)) ∧
    ((∀ u, bytes ≠ Utf8.encode u) → ∃ e,
      tree.scan path = .error (.undecodable e) ∧
      s.scanFile tree path = (.error (.undecodable e), s)) := by
  have scan := FileTree.scan_of_read found
  constructor
  · rintro u e no_cr rfl
    rw [Source.ofBytes_encode_withLineEnds e no_cr] at scan
    refine ⟨scan, ?_⟩
    rw [Session.scanFile, scan]
    rfl
  · intro malformed
    obtain ⟨e, refused⟩ := Source.exists_ofBytes_eq_error malformed path
    rw [refused] at scan
    refine ⟨e, scan, ?_⟩
    rw [Session.scanFile, scan]
    rfl

/-- A string that goes over a line end, in a file whose lines end in CR LF. -/
theorem scanFile_tells_text_crlf :
    (FileTree.empty.addFile ['p'] (Utf8.encode "\"é\r\n\" #".toList)).read ['p'] =
      .ok (Utf8.encode (Text.withLineEnds .crlf "\"é\n\" #".toList)) ∧
    (FileTree.empty.addFile ['p'] (Utf8.encode "\"é\r\n\" #".toList)).scan ['p'] =
      .ok (Source.ofText "\"é\n\" #".toList ['p']).scan := by
  have found : (FileTree.empty.addFile ['p'] (Utf8.encode "\"é\r\n\" #".toList)).read ['p'] =
      .ok (Utf8.encode (Text.withLineEnds .crlf "\"é\n\" #".toList)) := by
    rfl
  obtain ⟨scan, -⟩ := (scanFile_tells_text .start found).1 "\"é\n\" #".toList .crlf (by decide) rfl
  exact ⟨found, scan⟩

end Pseudocode

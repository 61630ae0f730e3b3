import Mathlib.Algebra.Group.Int.Defs
import Mathlib.Algebra.Group.Nat.Defs
import Pseudocode.Proofs.LineStamp
import Pseudocode.Proofs.Located

/-!
# Limits

A diagnostic is put into words when it is made, so a number in its location that is too long to
be written makes the scan break off.  That is the only way for a scan to fail:

* it is carried out just if all locations can be written (`Source.scan?_eq_ok_iff`), and the
  filename has no part in that;
* columns and lines grow with the text only, so a text that is shorter than the limit, with a
  first line number far from it, is always scanned (`Source.scan?_of_near`).
-/

namespace Pseudocode

theorem Text.isWritable_iff {n : Int} : isWritable n ↔ n.natAbs < 10 ^ digitLimit := by
  rw [isWritable, decide_eq_true_iff]
  exact Nat.length_toDigits_le_iff (by decide) (by decide)

theorem Location.isWritable_iff {l : Location} :
    l.isWritable ↔ l.line.natAbs < 10 ^ Text.digitLimit ∧
      (l.column ≤ 0 ∨ l.column.natAbs < 10 ^ Text.digitLimit) := by
  rw [isWritable, Bool.and_eq_true, Bool.or_eq_true, decide_eq_true_iff, Text.isWritable_iff,
    Text.isWritable_iff]

/-! ## Diagnostics that are made -/

/-- The location of every diagnostic can be written. -/
def Diagnostics.Writable (ds : Diagnostics) : Prop :=
  ∀ d ∈ ds, ∀ l ∈ d.location, l.isWritable

theorem Diagnostic.made_of_writable {d : Diagnostic} (writable : ∀ l ∈ d.location, l.isWritable) :
    d.made = .ok d := by
  obtain ⟨fault, location, sourceLine⟩ := d
  cases location with
  | none => rfl
  | some l =>
      have text : l.text? = .ok l.text := if_pos (writable l rfl)
      simp only [made, text]
      rfl

theorem Diagnostic.made_of_not_writable {d : Diagnostic} {l : Location} (located : l ∈ d.location)
    (long : ¬ l.isWritable) : d.made = .error .tooManyDigits := by
  have text : l.text? = .error .tooManyDigits := if_neg long
  obtain ⟨fault, location, sourceLine⟩ := d
  obtain rfl : location = some l := located
  simp only [made, text]
  rfl

namespace Diagnostics

theorem mapM_made_of_writable {ds : Diagnostics} (writable : ds.Writable) :
    ds.mapM Diagnostic.made = .ok ds := by
  induction ds with
  | nil => rfl
  | cons d ds ih =>
      rw [List.mapM_cons, Diagnostic.made_of_writable (writable d List.mem_cons_self),
        ih fun e mem => writable e (List.mem_cons_of_mem d mem)]
      rfl

/-- One diagnostic that cannot be made is enough. -/
theorem mapM_made_of_not_writable {ds : Diagnostics} (long : ¬ ds.Writable) :
    ds.mapM Diagnostic.made = .error .tooManyDigits := by
  induction ds with
  | nil => exact absurd (fun d mem => absurd mem List.not_mem_nil) long
  | cons d ds ih =>
      rw [List.mapM_cons]
      by_cases first : ∀ l ∈ d.location, l.isWritable
      · have later : ¬ Writable ds := by
          intro writable
          refine long fun e mem => ?_
          rcases List.mem_cons.mp mem with rfl | mem
          · exact first
          · exact writable e mem
        rw [Diagnostic.made_of_writable first, ih later]
        rfl
      · push Not at first
        obtain ⟨l, located, long⟩ := first
        rw [Diagnostic.made_of_not_writable located long]
        rfl

end Diagnostics

/-! ## Scans that are carried out -/

namespace Source

theorem scan?_of_writable {src : Source} (writable : src.scan.diagnostics.Writable) :
    src.scan? = .ok src.scan := by
  have made : src.diagnostics.mapM Diagnostic.made = .ok src.diagnostics :=
    Diagnostics.mapM_made_of_writable writable
  rw [scan?, made]
  rfl

theorem scan?_of_not_writable {src : Source} (long : ¬ src.scan.diagnostics.Writable) :
    src.scan? = .error .tooManyDigits := by
  have made : src.diagnostics.mapM Diagnostic.made = .error .tooManyDigits :=
    Diagnostics.mapM_made_of_not_writable long
  rw [scan?, made]
  rfl

theorem scan?_eq_ok_iff {src : Source} {scan : Scan} :
    src.scan? = .ok scan ↔ scan = src.scan ∧ src.scan.diagnostics.Writable := by
  by_cases writable : src.scan.diagnostics.Writable
  · rw [scan?_of_writable writable]
    exact ⟨fun same => ⟨(Except.ok.inj same).symm, writable⟩, fun h => congrArg _ h.1.symm⟩
  · rw [scan?_of_not_writable writable]
    exact ⟨nofun, fun h => absurd h.2 writable⟩

/-- A line number that is short enough is enough, since columns are at most as long as the text
    and one line is passed for a character at most. -/
theorem scan?_of_near {src : Source}
    (near : src.line.natAbs + src.text.length + 1 < 10 ^ Text.digitLimit) :
    src.scan? = .ok src.scan := by
  refine scan?_of_writable fun d mem l located => ?_
  rw [src.diagnostics_eq_map_marks] at mem
  obtain ⟨m, on, rfl⟩ := List.mem_map.mp mem
  obtain rfl : src.locationAt m.offset = l := Option.some.inj located
  have offset := (on_of_mem_marks on).offset_le
  have lines := src.text.lineIndex_le_count m.offset
  have length := List.count_le_length (a := Text.lineEnd) (l := src.text)
  have start := src.text.lineStart_le m.offset
  rw [Location.isWritable_iff]
  simp only [locationAt]
  generalize 10 ^ Text.digitLimit = limit at near ⊢
  omega

end Source

end Pseudocode

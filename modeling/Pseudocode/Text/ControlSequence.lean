import Pseudocode.Text

/-!
# Terminal control sequences

A control sequence is ESC `[`, then parameters (digits, `;` and `?`), then one ASCII letter.
Output that does not go to a terminal is written without them. A character that starts no
complete control sequence stays, so a text free of ESC is unchanged, whatever stands behind it
(`withoutControlSequences_append`).
-/

namespace Pseudocode.Text

/-- The escape character. -/
def escape : Char := '\x1b'

/-- May stand between the bracket and the letter of a control sequence. -/
def isControlParameter (c : Char) : Bool :=
  c.isDigit || c == ';' || c == '?'

/-- What follows the control sequence that the text starts with, if it starts with one. -/
def afterControlSequence? : Text → Option Text
  | c :: '[' :: rest =>
    if c = escape then
      match rest.dropWhile isControlParameter with
      | [] => none
      | final :: after => if final.isAlpha then some after else none
    else none
  | _ => none

theorem length_afterControlSequence? {s after : Text} (h : afterControlSequence? s = some after) :
    after.length < s.length := by
  unfold afterControlSequence? at h
  split at h
  · rename_i c rest
    split at h
    · have shorter := (List.dropWhile_suffix isControlParameter (l := rest)).length_le
      split at h
      · simp at h
      · rename_i final tail drop
        split at h
        · simp only [Option.some.injEq] at h
          subst h
          rw [drop] at shorter
          simp only [List.length_cons] at shorter ⊢
          omega
        · simp at h
    · simp at h
  · simp at h

/-- The text with every control sequence deleted, from left to right. -/
def withoutControlSequences : Text → Text
  | [] => []
  | c :: rest =>
    match _h : afterControlSequence? (c :: rest) with
    | some after => withoutControlSequences after
    | none => c :: withoutControlSequences rest
termination_by s => s.length
decreasing_by
  · exact length_afterControlSequence? (by assumption)
  · simp

/-- What has no ESC is not touched, whatever stands behind it. -/
theorem withoutControlSequences_append {s : Text} (h : escape ∉ s) (rest : Text) :
    withoutControlSequences (s ++ rest) = s ++ withoutControlSequences rest := by
  induction s with
  | nil => rfl
  | cons c s ih =>
      have none : afterControlSequence? (c :: (s ++ rest)) = none := by
        unfold afterControlSequence?
        split
        · rename_i c' rest' heq
          obtain ⟨rfl, -⟩ := List.cons.inj heq
          rw [if_neg (fun same => h (by simp [same]))]
        · rfl
      rw [List.cons_append, withoutControlSequences, none]
      simp [ih (fun mem => h (List.mem_cons_of_mem c mem))]

theorem withoutControlSequences_eq_self {s : Text} (h : escape ∉ s) :
    withoutControlSequences s = s := by
  have kept := withoutControlSequences_append h []
  rwa [List.append_nil, withoutControlSequences, List.append_nil] at kept

end Pseudocode.Text

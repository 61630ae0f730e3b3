import Pseudocode.Command.Failure
import Pseudocode.Command.Usage

/-!
# What events write

Events of one kind write the same thing again and again, to one of the two outputs.  Tokens are
echoed and so stand on standard output, diagnostics stand on standard error, and so do records,
but those of a run that is not verbose are missing (`stderr_records`).  However a run goes wrong,
it is told on standard error only (`Failure.stdout_events`, `UsageError.stdout_events`).
-/

namespace Pseudocode.Command

/-! ## Records -/

/-- Only records come of putting texts on record. -/
theorem Event.exists_of_mem_records {verbose : Bool} {texts : List Text} {e : Event}
    (mem : e ∈ records verbose texts) : ∃ text, e = .record text := by
  cases verbose with
  | false => exact absurd mem List.not_mem_nil
  | true =>
      obtain ⟨text, -, rfl⟩ := List.mem_map.mp mem
      exact ⟨text, rfl⟩

/-- A reading that passes over records finds nothing in them. -/
theorem Event.filterMap_records {α : Type} {f : Event → Option α}
    (other : ∀ text, f (.record text) = none) (verbose : Bool) (texts : List Text) :
    (records verbose texts).filterMap f = [] := by
  rw [List.filterMap_eq_nil_iff]
  intro e mem
  obtain ⟨text, rfl⟩ := exists_of_mem_records mem
  exact other text

theorem stdout_records (verbose : Bool) (texts : List Text) :
    (Event.records verbose texts).flatMap Event.stdout = [] := by
  rw [List.flatMap_eq_nil_iff]
  intro e mem
  obtain ⟨text, rfl⟩ := Event.exists_of_mem_records mem
  rfl

/-- Only a verbose run shows its records. -/
theorem stderr_records (verbose : Bool) (texts : List Text) :
    (Event.records verbose texts).flatMap Event.stderr =
      if verbose then texts.flatMap logged else [] := by
  cases verbose with
  | false => rfl
  | true => exact List.flatMap_map ..

/-! ## Tokens and diagnostics -/

theorem stdout_displays (tokens : List Token) :
    (tokens.map (Event.echo ·.display)).flatMap Event.stdout =
      tokens.flatMap (echoed ·.display) :=
  List.flatMap_map ..

theorem stderr_displays (tokens : List Token) :
    (tokens.map (Event.echo ·.display)).flatMap Event.stderr = [] :=
  List.flatMap_eq_nil_iff.mpr (List.forall_mem_map.mpr fun _ _ => rfl)

theorem stdout_complaints (ds : Diagnostics) :
    (ds.map (Event.complain ·.text)).flatMap Event.stdout = [] :=
  List.flatMap_eq_nil_iff.mpr (List.forall_mem_map.mpr fun _ _ => rfl)

theorem stderr_complaints (ds : Diagnostics) :
    (ds.map (Event.complain ·.text)).flatMap Event.stderr =
      ds.flatMap (echoed ·.text) :=
  List.flatMap_map ..

/-! ## Failures -/

theorem Failure.stdout_events (f : Failure) (verbose : Bool) :
    (f.events verbose).flatMap Event.stdout = [] := by
  rw [events]
  cases f.exitCode with
  | internalError => cases verbose <;> rfl
  | _ => rfl

theorem UsageError.stdout_events (e : UsageError) : e.events.flatMap Event.stdout = [] := by
  rw [events]
  cases e.showsUsage <;> rfl

end Pseudocode.Command

import Pseudocode.Proofs.Conversation
import Pseudocode.Proofs.FileRun

/-!
# Isolation of lines

One collector goes through a whole conversation, and the errors that follow a line are shown
from the collector, not from the scan of the line.  Still no line has a part in what is said
about another one (`run_isolates`).

A conversation that begins with nothing collected is a mark, the answer to its first line, and
the conversation about the other lines, which begins with nothing collected again (`run_cons`).
The rest is by induction on the lines: what is written (`ofEvents_run`), what has been done when a
mark is written (`exists_mark_of_prompt`, `exists_turns_of_mark`), and where the answer to a line
stands (`run_append_cons`).
-/

namespace Pseudocode.Command

theorem Transcript.ofEvents_append (es es' : List Event) :
    ofEvents (es ++ es') =
      ⟨(ofEvents es).stdout ++ (ofEvents es').stdout,
        (ofEvents es).stderr ++ (ofEvents es').stderr⟩ := by
  simp only [ofEvents, List.flatMap_append]

/-- What stands behind a front that lacks an item, and holds the item, holds it behind the front. -/
theorem exists_append_of_not_mem {α : Type} {front rest front' back : List α} {a : α}
    (same : front ++ rest = front' ++ a :: back) (absent : a ∉ front) :
    ∃ middle, front' = front ++ middle ∧ rest = middle ++ a :: back := by
  rcases List.append_eq_append_iff.mp same with ⟨middle, rfl, rfl⟩ | ⟨middle, rfl, cut⟩
  · exact ⟨middle, rfl, rfl⟩
  · cases middle with
    | nil => exact ⟨[], by rw [List.append_nil, List.append_nil], cut.symm⟩
    | cons b middle =>
        obtain ⟨rfl, -⟩ := List.cons.inj cut
        exact absurd (List.mem_append_right front' List.mem_cons_self) absent

namespace Prompt

/-- What is written about a line, without records: its tokens and its errors. -/
def contribution (line : Text) : Transcript :=
  let scan := (source line).scan
  ⟨scan.tokens.flatMap (echoed ·.display), scan.diagnostics.flatMap (echoed ·.text)⟩

theorem ofEvents_answer (line : Text) : .ofEvents (answer false line) = contribution line := by
  have stdout : (answer false line).flatMap Event.stdout = (contribution line).stdout := by
    simp only [answer, List.flatMap_append, stdout_records, stdout_displays, stdout_complaints,
      List.nil_append, List.append_nil]
    rfl
  have stderr : (answer false line).flatMap Event.stderr = (contribution line).stderr := by
    simp only [answer, List.flatMap_append, stderr_records, stderr_displays, stderr_complaints,
      Bool.false_eq_true, if_false, List.nil_append]
    rfl
  rw [Transcript.ofEvents, stdout, stderr]

/-! ## A conversation line by line -/

theorem run_nil_nil (verbose : Bool) : run verbose [] [] = ([.prompt, .echo []], []) :=
  rfl

/-- Behind the answer to a line, a conversation goes on as if it began there. -/
theorem run_cons (verbose : Bool) (x : Text) (lines : List Text) :
    run verbose [] (x :: lines) =
      (.prompt :: answer verbose x ++ (run verbose [] lines).1, []) := by
  rw [run_nil_eq, run_nil_eq, List.flatMap_cons]
  simp only [List.cons_append, List.append_assoc, List.nil_append]

theorem ofEvents_run (lines : List Text) :
    .ofEvents (run false [] lines).1 = (⟨
      "> ".toList ++ lines.flatMap (fun x => (contribution x).stdout ++ "> ".toList) ++
        [Text.lineEnd],
      lines.flatMap fun x => (contribution x).stderr⟩ : Transcript) := by
  induction lines with
  | nil =>
      have last : Event.stdout (.echo []) = [Text.lineEnd] := by
        rw [Event.stdout, echoed, Text.withoutControlSequences, List.nil_append]
      rw [run_nil_nil, Transcript.ofEvents]
      simp only [List.flatMap_cons, List.flatMap_nil, List.append_nil, last]
      rfl
  | cons x lines ih =>
      have step := Transcript.ofEvents_append (.prompt :: answer false x) (run false [] lines).1
      have first := Transcript.ofEvents_append [.prompt] (answer false x)
      rw [run_cons, step, ih]
      rw [List.singleton_append, ofEvents_answer] at first
      rw [first]
      simp only [List.flatMap_cons, List.append_assoc]
      rfl

/-! ## What has been done when a mark is written -/

/-- The mark is written by its own action only. -/
theorem Action.eq_mark_of_prompt_mem {verbose : Bool} {collected : Diagnostics} {action : Action}
    (mem : .prompt ∈ (action.take verbose collected).1) : action = .mark := by
  cases action with
  | mark => rfl
  | scan source =>
      obtain ⟨_, other⟩ := Event.exists_of_mem_records mem
      exact nomatch other
  | list tokens =>
      obtain ⟨_, -, other⟩ := List.mem_map.mp mem
      exact nomatch other
  | complain =>
      obtain ⟨_, -, other⟩ := List.mem_map.mp mem
      exact nomatch other
  | forget => exact absurd mem List.not_mem_nil
  | close => exact nomatch List.mem_singleton.mp mem

/-- A mark that is written comes of an action, and what was written before comes of the actions
    before. -/
theorem exists_mark_of_prompt {verbose : Bool} {collected : Diagnostics} {actions : List Action}
    {front back : List Event}
    (shown : (perform verbose collected actions).1 = front ++ .prompt :: back) :
    ∃ done rest, actions = done ++ .mark :: rest ∧ (perform verbose collected done).1 = front := by
  induction actions generalizing collected front with
  | nil => exact absurd shown.symm (List.append_ne_nil_of_right_ne_nil front nofun)
  | cons action actions ih =>
      by_cases mark : action = .mark
      · subst mark
        cases front with
        | nil => exact ⟨[], actions, rfl, rfl⟩
        | cons e front =>
            obtain ⟨rfl, later⟩ := List.cons.inj shown
            obtain ⟨done, rest, rfl, before⟩ := ih later
            exact ⟨.mark :: done, rest, rfl, congrArg (Event.prompt :: ·) before⟩
      · have absent : .prompt ∉ (action.take verbose collected).1 := fun mem =>
          mark (Action.eq_mark_of_prompt_mem mem)
        obtain ⟨front, rfl, later⟩ := exists_append_of_not_mem shown absent
        obtain ⟨done, rest, rfl, before⟩ := ih later
        exact ⟨action :: done, rest, rfl, congrArg (_ ++ ·) before⟩

/-- In front of a mark stand the turns about some of the lines, and nothing of the next turn. -/
theorem exists_turns_of_mark {lines : List Text} {done rest : List Action}
    (cut : conversation lines = done ++ .mark :: rest) :
    ∃ before after, lines = before ++ after ∧ done ++ [.mark] = .mark :: before.flatMap turn := by
  induction lines generalizing done with
  | nil =>
      cases done with
      | nil => exact ⟨[], [], rfl, rfl⟩
      | cons action done =>
          have last : [Action.close] = done ++ .mark :: rest := (List.cons.inj cut).2
          have late : Action.mark ∈ [Action.close] := by
            rw [last]
            exact List.mem_append_right done List.mem_cons_self
          exact absurd late (by decide)
  | cons x lines ih =>
      cases done with
      | nil => exact ⟨[], x :: lines, rfl, rfl⟩
      | cons action done =>
          have behind : (turn x).dropLast ++ conversation lines = done ++ .mark :: rest :=
            (List.cons.inj cut).2
          have absent : Action.mark ∉ (turn x).dropLast := by simp [turn]
          obtain ⟨done, rfl, later⟩ := exists_append_of_not_mem behind absent
          obtain ⟨before, after, rfl, turns⟩ := ih later
          obtain ⟨rfl, -⟩ := List.cons.inj cut
          refine ⟨x :: before, after, rfl, ?_⟩
          rw [List.cons_append, List.append_assoc, turns, List.flatMap_cons]
          rfl

/-- A mark leaves what is collected as it was. -/
theorem perform_mark_snd (verbose : Bool) (collected : Diagnostics) (done : List Action) :
    (perform verbose collected (done ++ [.mark])).2 = (perform verbose collected done).2 := by
  rw [perform_append]
  rfl

/-- The answer to a line stands between what is said up to the mark in front of it and a
    conversation about the lines behind it. -/
theorem run_append_cons (verbose : Bool) (before : List Text) (x : Text) (after : List Text) :
    (run verbose [] (before ++ x :: after)).1 =
      (perform verbose [] (.mark :: before.flatMap turn)).1 ++ answer verbose x ++
        (run verbose [] after).1 := by
  rw [run_nil_eq, run_nil_eq, perform_mark_turns, List.flatMap_append, List.flatMap_cons]
  simp only [List.cons_append, List.append_assoc, List.nil_append]

/-- **Lines are isolated from each other.**  In a conversation that begins with nothing
    collected,
    1. standard output is a mark, the tokens of each line with a mark behind them, and a line
       end, and standard error is the errors of each line;
    2. whenever a mark is written, then what has been done before are whole turns about some of
       the lines, and it has left nothing collected;
    3. nothing is collected at the end;
    4. the answer to a line is what the line alone makes it, in whatever conversation it
       stands: the lines before it and those behind it have their own parts. -/
theorem run_isolates (verbose : Bool) (lines : List Text) :
    .ofEvents (run false [] lines).1 = (⟨
      "> ".toList ++ lines.flatMap (fun x => (contribution x).stdout ++ "> ".toList) ++
        [Text.lineEnd],
      lines.flatMap fun x => (contribution x).stderr⟩ : Transcript) ∧
    (∀ front back, (run verbose [] lines).1 = front ++ .prompt :: back →
      ∃ before after actions, lines = before ++ after ∧
        actions ++ [.mark] = .mark :: before.flatMap turn ∧
        perform verbose [] actions = (front, [])) ∧
    (run verbose [] lines).2 = [] ∧
    ∀ before x after, lines = before ++ x :: after →
      (run verbose [] lines).1 =
        (perform verbose [] (.mark :: before.flatMap turn)).1 ++ answer verbose x ++
          (run verbose [] after).1 ∧
      .ofEvents (answer false x) = contribution x := by
  refine ⟨ofEvents_run lines, ?_, ?_, ?_⟩
  · intro front back shown
    obtain ⟨done, rest, cut, written⟩ := exists_mark_of_prompt shown
    obtain ⟨before, after, whole, turns⟩ := exists_turns_of_mark cut
    have collected := perform_mark_snd verbose [] done
    rw [turns, perform_mark_turns] at collected
    exact ⟨before, after, done, whole, turns, Prod.ext written collected.symm⟩
  · rw [run_nil_eq]
  · rintro before x after rfl
    exact ⟨run_append_cons verbose before x after, ofEvents_answer x⟩

/-- An open string over two lines, and a clean line behind it. -/
example : Transcript.ofEvents (run false [] ["\"\n1\n\n".toList, "1\n".toList]).1 =
    ⟨"> EOF  null\n> NUMBER 1 1.0\nEOF  null\n> \n".toList,
      (contribution "\"\n1".toList).stderr⟩ := by
  decide +kernel

end Prompt

end Pseudocode.Command

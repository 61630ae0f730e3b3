import Pseudocode.Command.Prompt
import Pseudocode.Proofs.Events
import Pseudocode.Proofs.LineBreak
import Pseudocode.Proofs.LineStamp
import Pseudocode.Proofs.Located

/-!
# Conversations

Lines that are answered one by one at the prompt are answered as one text would be: the
conversation shows the tokens and the diagnostics of a scan of the lines set under each other
(`answers_tell_scan`).  Only a string that is left open at the end of a line could tell the
difference.  The route:

* what is `Linewise` is read off a text line by line, with line numbers that count on.
  Tokens and diagnostics are (`linewise_tokensOf`, `linewise_diagnosticsOf`), since no
  piece but an open string goes across a line end;
* hence what stands on the line `n + i` of the whole is what is read off the line number `i`
  alone (`Linewise.filter_joinLines`);
* a token shows the same on every line, and a diagnostic of one line differs from that of
  another in its file name and line number only (`Source.diagnostics_map_moved`).
-/

namespace Pseudocode

/-! ## Lines of a text -/

/-- The text can be a line of a scanned text: it has no line end and leaves no string open. -/
structure IsLine (x : Text) : Prop where
  one_line : Text.lineEnd ∉ x
  closed : ∀ p ∈ pieces x, p.fault? ≠ some .unterminatedString

theorem Text.joinLines_singleton (x : Text) : joinLines [x] = x :=
  List.append_nil x

theorem Text.joinLines_cons_cons (x y : Text) (lines : List Text) :
    joinLines (x :: y :: lines) = x ++ lineEnd :: joinLines (y :: lines) :=
  rfl

/-- A text that does not end in a line end is what is left of it if line ends are set behind it
    and dropped. -/
theorem Text.dropFinalLineEnds_append {x : Text} (last : x.getLast? ≠ some lineEnd) (n : Nat) :
    dropFinalLineEnds (x ++ List.replicate n lineEnd) = x := by
  have ends : RunEnds (· == lineEnd) x.reverse := by
    intro c first
    rw [List.head?_reverse] at first
    exact beq_eq_false_iff_ne.mpr fun same => last (same ▸ first)
  have inside : ∀ c ∈ List.replicate n lineEnd, c == lineEnd := fun c mem =>
    beq_iff_eq.mpr (List.eq_of_mem_replicate mem)
  rw [dropFinalLineEnds, List.reverse_append, List.reverse_replicate,
    ends.dropWhile_append inside, List.reverse_reverse]

/-- All line ends at the end of a text are dropped, and nothing else is. -/
theorem Text.dropFinalLineEnds_eq_iff {s x : Text} :
    s.dropFinalLineEnds = x ↔
      x.getLast? ≠ some lineEnd ∧ ∃ n, s = x ++ List.replicate n lineEnd := by
  constructor
  · rintro rfl
    obtain ⟨run, rest, cut, inside, ends⟩ := RunEnds.exists_cut (· == lineEnd) s.reverse
    have replicate : run = List.replicate run.length lineEnd :=
      List.eq_replicate_of_mem fun c mem => beq_iff_eq.mp (inside c mem)
    have whole : s = rest.reverse ++ List.replicate run.length lineEnd := by
      rw [← List.reverse_replicate, ← replicate, ← List.reverse_append, ← cut, List.reverse_reverse]
    have last : rest.reverse.getLast? ≠ some lineEnd := by
      rw [List.getLast?_reverse]
      exact fun first => absurd (ends lineEnd first) (by decide)
    rw [whole, dropFinalLineEnds_append last]
    exact ⟨last, run.length, rfl⟩
  · rintro ⟨last, n, rfl⟩
    exact dropFinalLineEnds_append last n

/-- Where `f n s` is read off the text `s`, whose first line has the number `n`, it is read
    off line by line: what is read off the first line stands on line `n`, and what is read off
    the rest is numbered on. -/
structure Linewise {α : Type} (f : Int → Text → List α) (onLine : Int → α → Bool) : Prop where
  nil (n : Int) : f n [] = []
  append (n : Int) {x : Text} (line : IsLine x) (rest : Text) :
    f n (x ++ Text.lineEnd :: rest) = f n x ++ f (n + 1) rest
  onLine {n : Int} {x : Text} (line : IsLine x) {a : α} (mem : a ∈ f n x) (m : Int) :
    onLine m a = decide (n = m)

namespace Linewise

variable {α β : Type} {f : Int → Text → List α} {onLine : Int → α → Bool}

theorem joinLines_cons (h : Linewise f onLine) (n : Int) {x : Text} (line : IsLine x)
    (lines : List Text) :
    f n (Text.joinLines (x :: lines)) = f n x ++ f (n + 1) (Text.joinLines lines) := by
  cases lines with
  | nil =>
      show f n (Text.joinLines [x]) = f n x ++ f (n + 1) []
      rw [Text.joinLines_singleton, h.nil, List.append_nil]
  | cons y lines => rw [Text.joinLines_cons_cons, h.append n line]

/-- If the image of what is read off a line does not depend on the number of the line, then the
    image of the whole is put together from the lines alone. -/
theorem map_joinLines (h : Linewise f onLine) {g : α → β} {k : Text → List β}
    (same : ∀ n x, IsLine x → (f n x).map g = k x) {lines : List Text}
    (all : ∀ x ∈ lines, IsLine x) (n : Int) :
    (f n (Text.joinLines lines)).map g = lines.flatMap k := by
  induction lines generalizing n with
  | nil =>
      show (f n []).map g = []
      rw [h.nil, List.map_nil]
  | cons x lines ih =>
      have line := all x List.mem_cons_self
      have later := ih (fun y mem => all y (List.mem_cons_of_mem x mem)) (n + 1)
      rw [h.joinLines_cons n line, List.map_append, same n x line, later, List.flatMap_cons]

theorem onLine_eq_false_of_lt (h : Linewise f onLine) {lines : List Text}
    (all : ∀ x ∈ lines, IsLine x) {n m : Int} (before : m < n) {a : α}
    (mem : a ∈ f n (Text.joinLines lines)) : onLine m a = false := by
  induction lines generalizing n with
  | nil =>
      have empty : f n (Text.joinLines []) = [] := h.nil n
      rw [empty] at mem
      exact absurd mem List.not_mem_nil
  | cons x lines ih =>
      have line := all x List.mem_cons_self
      rw [h.joinLines_cons n line] at mem
      rcases List.mem_append.mp mem with here | there
      · rw [h.onLine line here m]
        exact decide_eq_false (by omega)
      · exact ih (fun y mem => all y (List.mem_cons_of_mem x mem)) (by omega) there

/-- **What stands on a line is what is read off it alone.** -/
theorem filter_joinLines (h : Linewise f onLine) {lines : List Text}
    (all : ∀ x ∈ lines, IsLine x) (n : Int) {i : Nat} {x : Text} (at_index : lines[i]? = some x) :
    (f n (Text.joinLines lines)).filter (onLine (n + i)) = f (n + i) x := by
  induction lines generalizing n i with
  | nil => exact nomatch at_index
  | cons y lines ih =>
      have line := all y List.mem_cons_self
      have rest : ∀ z ∈ lines, IsLine z := fun z mem => all z (List.mem_cons_of_mem y mem)
      rw [h.joinLines_cons n line, List.filter_append]
      cases i with
      | zero =>
          obtain rfl := Option.some.inj at_index
          rw [Int.natCast_zero, Int.add_zero]
          have here : (f n y).filter (onLine n) = f n y := by
            refine List.filter_eq_self.mpr fun a mem => ?_
            rw [h.onLine line mem n]
            exact decide_eq_true rfl
          have there : (f (n + 1) (Text.joinLines lines)).filter (onLine n) = [] := by
            refine List.filter_eq_nil_iff.mpr fun a mem => ?_
            rw [h.onLine_eq_false_of_lt rest (by omega) mem]
            exact Bool.false_ne_true
          rw [here, there, List.append_nil]
      | succ i =>
          have later := ih rest (n + 1) at_index
          have number : n + 1 + (i : Int) = n + (i + 1 : Nat) := by omega
          rw [number] at later
          have here : (f n y).filter (onLine (n + (i + 1 : Nat))) = [] := by
            refine List.filter_eq_nil_iff.mpr fun a mem => ?_
            rw [h.onLine line mem]
            exact ne_true_of_eq_false (decide_eq_false (by omega))
          rw [here, List.nil_append, later]

end Linewise

/-! ## Tokens and diagnostics line by line -/

theorem Cursor.step_advance_line (n : Int) {x : Text} (one_line : Text.lineEnd ∉ x) :
    ((Cursor.atLine n).advance x).step Text.lineEnd = Cursor.atLine (n + 1) := by
  rw [step_lineEnd, advance_atLine, List.count_eq_zero.mpr one_line]
  simp

theorem Text.lineIndex_eq_zero {x : Text} (one_line : lineEnd ∉ x) (p : Nat) :
    x.lineIndex p = 0 :=
  List.count_eq_zero.mpr fun mem => one_line (List.mem_of_mem_take mem)

theorem linewise_tokensOf :
    Linewise (fun n x => tokensOf (.atLine n) (pieces x)) (fun m t => decide (t.line = m)) where
  nil n := by
    rw [pieces_nil]
    rfl
  append n x line rest := by
    rw [pieces_append_lineEnd line.closed, tokensOf_append, flatMap_text_pieces, tokensOf_blank,
      Cursor.step_advance_line n line.one_line]
  onLine {n x} line t mem m := by
    have stamp := List.mem_map_of_mem (f := Token.line) mem
    rw [Source.map_line_tokensOf ⟨x, [], n⟩] at stamp
    obtain ⟨y, -, line_eq⟩ := List.mem_map.mp stamp
    have zero := Text.lineIndex_eq_zero line.one_line y.stop
    have same : t.line = n := by
      rw [← line_eq]
      simp [zero]
    rw [same]

/-- The number of the line on which the diagnostic is located, if it is known. -/
def Diagnostic.line? (d : Diagnostic) : Option Int :=
  d.location.map Location.line

theorem Source.line?_of_mem {src : Source} (one_line : Text.lineEnd ∉ src.text) {d : Diagnostic}
    (mem : d ∈ src.scan.diagnostics) : d.line? = some src.line := by
  rw [src.diagnostics_eq_map_marks] at mem
  obtain ⟨m, -, rfl⟩ := List.mem_map.mp mem
  show some (src.line + (src.text.lineIndex m.offset : Int)) = some src.line
  rw [Text.lineIndex_eq_zero one_line, Int.natCast_zero, Int.add_zero]

theorem linewise_diagnosticsOf (file : Text) :
    Linewise (fun n x => diagnosticsOf file (.atLine n) (pieces x))
      (fun m d => decide (d.line? = some m)) where
  nil n := by
    rw [pieces_nil]
    rfl
  append n x line rest := by
    have seam : (Piece.blank Text.lineEnd :: pieces rest).flatMap Piece.text =
        Text.lineEnd :: rest := congrArg (Text.lineEnd :: ·) (flatMap_text_pieces rest)
    rw [pieces_append_lineEnd line.closed, diagnosticsOf_append seam, flatMap_text_pieces,
      diagnosticsOf_blank, Cursor.step_advance_line n line.one_line]
  onLine {n x} line d mem m := by
    have known : d.line? = some n := @Source.line?_of_mem ⟨x, file, n⟩ line.one_line d mem
    rw [known]
    exact decide_eq_decide.mpr ⟨Option.some.inj, congrArg some⟩

/-! ### Lines by themselves -/

/-- A token shows the same wherever it stands. -/
theorem map_display_tokensOf (cur cur' : Cursor) (ps : List Piece) :
    (tokensOf cur ps).map Token.display = (tokensOf cur' ps).map Token.display := by
  induction ps generalizing cur cur' with
  | nil => rfl
  | cons p ps ih =>
      have later := ih (cur.advance p.text) (cur'.advance p.text)
      cases p with
      | lexeme l => exact congrArg ((l.token 0).display :: ·) later
      | _ => exact later

/-- The diagnostic in the same column of another line of another file. -/
def Diagnostic.moved (file : Text) (line : Int) (d : Diagnostic) : Diagnostic :=
  { d with location := d.location.map fun l => ⟨file, line, l.column⟩ }

/-- Scanning a line under another name and number moves its diagnostics and nothing else. -/
theorem Source.diagnostics_map_moved {x : Text} (one_line : Text.lineEnd ∉ x)
    (file file' : Text) (n n' : Int) :
    (Source.scan ⟨x, file, n⟩).diagnostics.map (Diagnostic.moved file' n') =
      (Source.scan ⟨x, file', n'⟩).diagnostics := by
  rw [diagnostics_eq_map_marks, diagnostics_eq_map_marks, List.map_map]
  refine List.map_congr_left fun m _ => ?_
  have zero := Text.lineIndex_eq_zero one_line m.offset
  show (⟨m.fault, some ⟨file', n', _⟩, _⟩ : Diagnostic) = ⟨m.fault, some ⟨file', n' + _, _⟩, _⟩
  rw [zero, Int.natCast_zero, Int.add_zero]
  rfl

/-! ## The conversation -/

namespace Command

/-- The texts that events echo. -/
def echoes (events : List Event) : List Text :=
  events.filterMap fun
    | .echo text => some text
    | _ => none

/-- The texts that events put on standard error as errors. -/
def complaints (events : List Event) : List Text :=
  events.filterMap fun
    | .complain text => some text
    | _ => none

namespace Prompt

/-- What happens in answer to a line that comes when nothing is collected. -/
def answer (verbose : Bool) (line : Text) : List Event :=
  let scan := (source line).scan
  Event.records verbose scan.records ++ scan.tokens.map (.echo ·.display) ++
    scan.diagnostics.map (.complain ·.text)

variable (verbose : Bool)

/-- What is collected goes from the first actions to those behind them. -/
theorem perform_append (collected : Diagnostics) (front back : List Action) :
    perform verbose collected (front ++ back) =
      ((perform verbose collected front).1 ++
          (perform verbose (perform verbose collected front).2 back).1,
        (perform verbose (perform verbose collected front).2 back).2) := by
  induction front generalizing collected with
  | nil => rfl
  | cons action front ih =>
      rw [List.cons_append, perform, perform]
      simp only [ih, List.append_assoc]

/-- A turn shows everything collected, with the diagnostics of the line at the end, and leaves
    nothing collected. -/
theorem perform_turn (collected : Diagnostics) (line : Text) :
    perform verbose collected (turn line) =
      (Event.records verbose (source line).scan.records ++
          (source line).scan.tokens.map (.echo ·.display) ++
          (collected ++ (source line).scan.diagnostics).map (.complain ·.text) ++ [.prompt],
        []) := by
  simp only [turn, perform, Action.take, List.append_assoc, List.nil_append, List.append_nil]

theorem perform_turns (lines : List Text) :
    perform verbose [] (lines.flatMap turn) =
      (lines.flatMap fun x => answer verbose x ++ [.prompt], []) := by
  induction lines with
  | nil => rfl
  | cons x lines ih =>
      rw [List.flatMap_cons, perform_append, perform_turn, ih]
      rfl

/-- What is said up to the mark behind the lines, and what is collected there. -/
theorem perform_mark_turns (lines : List Text) :
    perform verbose [] (.mark :: lines.flatMap turn) =
      (.prompt :: lines.flatMap fun x => answer verbose x ++ [.prompt], []) := by
  rw [perform, Action.take]
  simp only [perform_turns, List.singleton_append]

theorem run_nil_eq (lines : List Text) :
    run verbose [] lines =
      (.prompt :: (lines.flatMap fun x => answer verbose x ++ [.prompt]) ++ [.echo []], []) := by
  rw [run, conversation, perform_append, perform_mark_turns]
  rfl

/-- An answered line leaves nothing collected, whatever was collected before it. -/
theorem run_snd (collected : Diagnostics) (lines : List Text) :
    (run verbose collected lines).2 = if lines.isEmpty then collected else [] := by
  cases lines with
  | nil => rfl
  | cons x lines =>
      have split : conversation (x :: lines) =
          [.mark] ++ (turn x ++ (lines.flatMap turn ++ [.close])) := by
        rw [conversation, List.flatMap_cons, ← List.append_assoc]
        rfl
      rw [run, split, perform_append, perform_append, perform_turn, perform_append, perform_turns]
      rfl

theorem prompt_not_mem_answer (line : Text) : .prompt ∉ answer verbose line := by
  intro mem
  rcases List.mem_append.mp mem with front | complained
  · rcases List.mem_append.mp front with recorded | echoed
    · obtain ⟨_, other⟩ := Event.exists_of_mem_records recorded
      exact nomatch other
    · obtain ⟨_, -, other⟩ := List.mem_map.mp echoed
      exact nomatch other
  · obtain ⟨_, -, other⟩ := List.mem_map.mp complained
    exact nomatch other

theorem echoes_answer (line : Text) :
    echoes (answer verbose line) = (source line).scan.tokens.map Token.display := by
  simp [echoes, answer, Event.filterMap_records, List.filterMap_append, List.filterMap_map]

theorem complaints_answer (line : Text) :
    complaints (answer verbose line) = (source line).scan.diagnostics.map Diagnostic.text := by
  simp [complaints, answer, Event.filterMap_records, List.filterMap_append, List.filterMap_map]

/-- A line without line ends is a source as it is. -/
theorem source_of_one_line {x : Text} (one_line : Text.lineEnd ∉ x) :
    source x = .ofText x file := by
  have last : x.getLast? ≠ some Text.lineEnd := fun last => one_line (List.mem_of_getLast? last)
  have kept : x.dropFinalLineEnds = x :=
    Text.dropFinalLineEnds_eq_iff.mpr ⟨last, 0, (List.append_nil x).symm⟩
  rw [source, kept]

end Prompt

/-- Lines set under each other, as one source. -/
def wholeSource (lines : List Text) (file : Text) : Source :=
  .ofText (Text.joinLines lines) file

theorem dropLast_tokens_wholeSource (lines : List Text) (file : Text) :
    (wholeSource lines file).scan.tokens.dropLast =
      tokensOf (.atLine 1) (pieces (Text.joinLines lines)) :=
  List.dropLast_concat

namespace Prompt

variable {verbose : Bool} {x : Text}

/-- The echoed texts are the displays of the tokens of the line, then that of the end token. -/
theorem echoes_answer_of_isLine (line : IsLine x) :
    echoes (answer verbose x) =
      (tokensOf (.atLine 1) (pieces x)).map Token.display ++ ["EOF  null".toList] := by
  rw [echoes_answer, source_of_one_line line.one_line]
  exact List.map_append

theorem dropLast_echoes_answer (line : IsLine x) (n : Int) :
    (echoes (answer verbose x)).dropLast = (tokensOf (.atLine n) (pieces x)).map Token.display := by
  rw [echoes_answer_of_isLine line, List.dropLast_concat]
  exact map_display_tokensOf _ _ _

theorem complaints_answer_of_isLine (line : IsLine x) (whole : Text) (n : Int) :
    complaints (answer verbose x) = (diagnosticsOf whole (.atLine n) (pieces x)).map
      fun d => (d.moved file 1).text := by
  rw [complaints_answer, source_of_one_line line.one_line]
  show (Source.scan ⟨x, file, 1⟩).diagnostics.map _ = _
  rw [← Source.diagnostics_map_moved line.one_line whole file n 1, List.map_map]
  rfl

end Prompt

/-- **A conversation tells what a scan tells.**  Take lines without line ends, none of which
    leaves a string open when it is scanned alone, and set them under each other.  If nothing is
    collected before, a conversation about the lines consists of an answer to each line, with
    marks between them, and nothing is collected behind it, whether it is verbose or not; and
    1. the texts that an answer echoes close with that of its end token;
    2. the other texts, from all answers, are in order the displays of all tokens of the
       whole but its end token;
    3. those of the answer to one line are the displays of the tokens that carry the number
       of this line in the whole;
    4. the errors in this answer are in order the diagnostics located on this line in the
       whole, moved to line one of the prompt. -/
theorem answers_tell_scan (verbose : Bool) (lines : List Text) (file : Text)
    (one_line : ∀ x ∈ lines, Text.lineEnd ∉ x)
    (closed : ∀ x ∈ lines, ∀ d ∈ (Source.ofText x file).scan.diagnostics,
      d.fault ≠ .unterminatedString) :
    ∃ answers : List (List Event),
      Prompt.run verbose [] lines =
        (.prompt :: answers.flatMap (· ++ [.prompt]) ++ [.echo []], []) ∧
      answers.length = lines.length ∧ (∀ a ∈ answers, .prompt ∉ a) ∧
      (∀ a ∈ answers, (echoes a).getLast? = some "EOF  null".toList) ∧
      answers.flatMap (fun a => (echoes a).dropLast) =
        (wholeSource lines file).scan.tokens.dropLast.map Token.display ∧
      ∀ (i : Nat) a, answers[i]? = some a →
        (echoes a).dropLast = ((wholeSource lines file).scan.tokens.dropLast.filter
          (·.line = 1 + (i : Int))).map Token.display ∧
        complaints a = ((wholeSource lines file).scan.diagnostics.filter
          (·.line? = some (1 + (i : Int)))).map fun d => (d.moved Prompt.file 1).text := by
  have all : ∀ x ∈ lines, IsLine x := fun x mem =>
    ⟨one_line x mem, Source.closed_of_diagnostics (closed x mem)⟩
  rw [dropLast_tokens_wholeSource]
  refine ⟨lines.map (Prompt.answer verbose), ?_, List.length_map _, ?_, ?_, ?_, ?_⟩
  · rw [Prompt.run_nil_eq, List.flatMap_map]
  · intro a mem
    obtain ⟨x, -, rfl⟩ := List.mem_map.mp mem
    exact Prompt.prompt_not_mem_answer verbose x
  · intro a mem
    obtain ⟨x, inLines, rfl⟩ := List.mem_map.mp mem
    rw [Prompt.echoes_answer_of_isLine (all x inLines), List.getLast?_concat]
  · have tokens := linewise_tokensOf.map_joinLines
      (fun n x line => (@Prompt.dropLast_echoes_answer verbose x line n).symm) all 1
    rw [List.flatMap_map, tokens]
  · intro i a at_index
    rw [List.getElem?_map] at at_index
    obtain ⟨x, in_lines, rfl⟩ := Option.map_eq_some_iff.mp at_index
    have line := all x (List.mem_of_getElem? in_lines)
    have tokens := linewise_tokensOf.filter_joinLines all 1 in_lines
    have diagnostics := (linewise_diagnosticsOf file).filter_joinLines all 1 in_lines
    constructor
    · rw [tokens, Prompt.dropLast_echoes_answer line]
    · rw [Prompt.complaints_answer_of_isLine line file, ← diagnostics]
      rfl

/-- The first line ends in a comment that holds a quote, the second one in a slash. -/
theorem answers_tell_scan_two_lines :
    (∀ x ∈ ["12. // \"".toList, "# \"//\" /".toList], Text.lineEnd ∉ x) ∧
    (∀ x ∈ ["12. // \"".toList, "# \"//\" /".toList],
      ∀ d ∈ (Source.ofText x "p".toList).scan.diagnostics, d.fault ≠ .unterminatedString) ∧
    ∃ answers : List (List Event),
      Prompt.run false [] ["12. // \"".toList, "# \"//\" /".toList] =
        (.prompt :: answers.flatMap (· ++ [.prompt]) ++ [.echo []], []) ∧
      answers.flatMap (fun a => (echoes a).dropLast) =
        ["NUMBER 12 12.0".toList, "DOT . null".toList, "STRING \"//\" //".toList,
          "SLASH / null".toList] := by
  have one_line : ∀ x ∈ ["12. // \"".toList, "# \"//\" /".toList], Text.lineEnd ∉ x := by decide
  have closed : ∀ x ∈ ["12. // \"".toList, "# \"//\" /".toList],
      ∀ d ∈ (Source.ofText x "p".toList).scan.diagnostics, d.fault ≠ .unterminatedString := by
    decide +kernel
  obtain ⟨answers, conversation, -, -, -, shown, -⟩ :=
    answers_tell_scan false _ "p".toList one_line closed
  refine ⟨one_line, closed, answers, conversation, shown.trans ?_⟩
  decide +kernel

end Command

end Pseudocode

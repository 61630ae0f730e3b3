import Pseudocode.Proofs.ReadingHead

/-!
# Passing text

A reading head that moves over text keeps the score of a cursor: it is on the same line, behind
the same text of that line (`Head.On`).  And a loop that goes on over characters with some
property passes the longest run of them, with one round for each (`Loop.Passes.run`), so that
it stops at the end of the text if not before (`Loop.Passes.exists_run`).

Each of the inner loops passes characters in this sense, and with that their own tests have
been used up: nothing behind this file unfolds a loop.
-/

namespace Pseudocode

namespace Head

/-! ## Passing text -/

/-- The head behind a character. -/
def pass (h : Head) (c : Char) : Head :=
  if c = Text.lineEnd then h.skip.newLine else h.skip

/-- The head behind a text. -/
def passText (h : Head) (s : Text) : Head :=
  s.foldl pass h

variable {src : Source} {h : Head} {c : Char} {s rest : Text}

theorem pass_of_ne (inside_line : c ≠ Text.lineEnd) : h.pass c = h.skip :=
  if_neg inside_line

theorem passText_cons (h : Head) (c : Char) (s : Text) :
    h.passText (c :: s) = (h.pass c).passText s :=
  rfl

theorem passText_append (h : Head) (s t : Text) :
    h.passText (s ++ t) = (h.passText s).passText t :=
  List.foldl_append

theorem current_pass (h : Head) (c : Char) : (h.pass c).current = h.current + 1 := by
  rw [pass]
  split <;> rfl

theorem current_passText (h : Head) (s : Text) :
    (h.passText s).current = h.current + s.length := by
  induction s generalizing h with
  | nil => rfl
  | cons c s ih =>
      rw [passText_cons, ih, current_pass, List.length_cons]
      omega

/-- Passing text finds nothing and starts nothing. -/
theorem passText_keeps (h : Head) (s : Text) :
    (h.passText s).start = h.start ∧ (h.passText s).tokens = h.tokens ∧
      (h.passText s).diagnostics = h.diagnostics := by
  induction s generalizing h with
  | nil => exact ⟨rfl, rfl, rfl⟩
  | cons c s ih =>
      rw [passText_cons]
      have here : (h.pass c).start = h.start ∧ (h.pass c).tokens = h.tokens ∧
          (h.pass c).diagnostics = h.diagnostics := by
        rw [pass]
        split <;> exact ⟨rfl, rfl, rfl⟩
      obtain ⟨start, tokens, diagnostics⟩ := ih (h.pass c)
      exact ⟨start.trans here.1, tokens.trans here.2.1, diagnostics.trans here.2.2⟩

theorem ahead_pass (next : h.ahead src = c :: rest) : (h.pass c).ahead src = rest := by
  rw [ahead, current_pass]
  exact ahead_skip next

theorem ahead_passText (next : h.ahead src = s ++ rest) : (h.passText s).ahead src = rest := by
  induction s generalizing h with
  | nil => exact next
  | cons c s ih => exact ih (ahead_pass next)

theorem lt_of_ahead (next : h.ahead src = c :: rest) : h.current < src.text.length := by
  rw [← Nat.not_le, ← List.drop_eq_nil_iff]
  rw [ahead] at next
  rw [next]
  exact List.cons_ne_nil c rest

/-- From the start of a lexeme on stands what has been passed since. -/
theorem lexeme_passText (marked : h.start = h.current) (next : h.ahead src = s ++ rest) :
    (h.passText s).lexeme src = s := by
  rw [lexeme, (h.passText_keeps s).1, current_passText, marked]
  exact Text.slice_of_drop next

/-! ## Heads and cursors -/

/-- The head stands where the cursor stands, on the same line and behind the same text of that
    line. -/
structure On (h : Head) (src : Source) (cur : Cursor) : Prop where
  line : h.line = cur.line
  current : h.current = h.lineStart + cur.passed.length
  inside : h.current ≤ src.text.length
  passed : src.text.drop h.lineStart = cur.passed.reverse ++ h.ahead src
  inside_line : Text.lineEnd ∉ cur.passed

namespace On

variable {cur : Cursor}

theorem atStart (src : Source) : (Head.atStart src).On src (.atLine src.line) where
  line := rfl
  current := rfl
  inside := Nat.zero_le _
  passed := rfl
  inside_line := List.not_mem_nil

theorem pass (on : h.On src cur) (next : h.ahead src = c :: rest) :
    (h.pass c).On src (cur.step c) := by
  have ahead := ahead_pass next
  have inside := lt_of_ahead next
  rw [Head.pass] at ahead ⊢
  rw [Cursor.step]
  by_cases ends : c = Text.lineEnd
  · rw [if_pos ends] at ahead ⊢
    rw [if_pos ends]
    exact {
      line := congrArg (· + 1) on.line
      current := rfl
      inside := inside
      passed := rfl
      inside_line := List.not_mem_nil }
  · rw [if_neg ends] at ahead ⊢
    rw [if_neg ends]
    exact {
      line := on.line
      current := congrArg (· + 1) on.current
      inside := inside
      passed := by
        show src.text.drop h.lineStart = (c :: cur.passed).reverse ++ _
        rw [on.passed, ahead, next, List.reverse_cons, List.append_assoc]
        rfl
      inside_line := fun mem =>
        (List.mem_cons.mp mem).elim (fun same => ends same.symm) on.inside_line }

theorem passText (on : h.On src cur) (next : h.ahead src = s ++ rest) :
    (h.passText s).On src (cur.advance s) := by
  induction s generalizing h cur with
  | nil => exact on
  | cons c s ih => exact ih (on.pass next) (ahead_pass next)

/-- What has been found makes no difference to where a head stands. -/
theorem of_place {h' : Head} (on : h.On src cur) (current : h'.current = h.current)
    (line : h'.line = h.line) (lineStart : h'.lineStart = h.lineStart) : h'.On src cur where
  line := line.trans on.line
  current := by rw [current, lineStart, on.current]
  inside := current ▸ on.inside
  passed := by rw [lineStart, on.passed, ahead, ahead, current]
  inside_line := on.inside_line

theorem location (on : h.On src cur) : h.location src h.current = cur.location src.file := by
  have current := on.current
  rw [Head.location, Cursor.location, on.line, Cursor.column, Location.mk.injEq]
  refine ⟨rfl, rfl, ?_⟩
  omega

theorem lineText (on : h.On src cur) :
    h.lineText src = cur.lineWith ((h.ahead src).takeWhile (· != Text.lineEnd)) := by
  have inside : ∀ c ∈ cur.passed.reverse, (c != Text.lineEnd) = true :=
    fun _ mem => Text.bne_of_mem on.inside_line (List.mem_reverse.mp mem)
  rw [Head.lineText, on.passed, List.takeWhile_append_of_pos inside, Cursor.lineWith]

end On

end Head

/-! ## Loops that pass text -/

/-- The loop passes characters as long as they have the property. -/
structure Loop.Passes (l : Loop) (src : Source) (p : Char → Bool) : Prop where
  goesOn (h : Head) : l.goesOn h = (h.ahead src).head?.any p
  round {h : Head} {c : Char} {rest : Text} (next : h.ahead src = c :: rest) (inside : p c) :
    l.round h = .ok (h.pass c)

namespace Loop

open Head

variable {src : Source} {l : Loop} {p : Char → Bool} {h : Head} {s rest : Text} {n : Nat}

/-- A loop passes a longest run of characters, with a round for each of them. -/
theorem Passes.run (passes : l.Passes src p) (next : h.ahead src = s ++ rest)
    (inside : ∀ c ∈ s, p c) (ends : RunEnds p rest) (rounds : s.length ≤ n) :
    l.run n h = .ok (h.passText s) := by
  induction s generalizing h n with
  | nil =>
      have stops : l.goesOn h = false := by
        rw [passes.goesOn, next, List.nil_append]
        cases rest with
        | nil => rfl
        | cons c rest => exact ends.head
      cases n with
      | zero =>
          rw [Loop.run, stops]
          rfl
      | succ n =>
          rw [Loop.run, stops]
          rfl
  | cons c s ih =>
      obtain ⟨here, later⟩ := List.forall_mem_cons.mp inside
      have on : l.goesOn h = true := by
        rw [passes.goesOn, next]
        exact here
      cases n with
      | zero => exact absurd rounds (Nat.not_succ_le_zero _)
      | succ n =>
          rw [Loop.run, if_pos on, passes.round next here]
          exact ih (ahead_pass next) later (Nat.le_of_succ_le_succ rounds)

/-- A loop that passes characters stops at the end of the text if not before. -/
theorem Passes.exists_run (passes : l.Passes src p) (inside : h.current ≤ src.text.length)
    (rounds : src.text.length - h.current ≤ n) :
    ∃ h', l.run n h = .ok h' ∧ h.current ≤ h'.current ∧ h'.current ≤ src.text.length := by
  obtain ⟨s, rest, next, all, ends⟩ := RunEnds.exists_cut p (h.ahead src)
  have length := congrArg List.length next
  rw [ahead, List.length_drop, List.length_append] at length
  refine ⟨_, passes.run next all ends (by omega), ?_, ?_⟩
  · rw [current_passText]
    exact Nat.le_add_right _ _
  · rw [current_passText]
    omega

theorem singleton_bne (c d : Char) : ([c] != [d]) = (c != d) := by
  rw [Bool.eq_iff_iff, bne_iff_ne, bne_iff_ne, ne_eq, List.singleton_inj]

theorem passes_comment (src : Source) : (comment src).Passes src (· != Text.lineEnd) where
  goesOn h := by
    show (!h.atEnd src && h.peek src 0 != [Text.lineEnd]) = _
    rw [peek_eq]
    cases next : h.ahead src with
    | nil =>
        rw [atEnd_iff.mpr next]
        rfl
    | cons c rest =>
        rw [atEnd_eq_false next]
        exact singleton_bne c _
  round next inside := by
    rw [pass_of_ne (bne_iff_ne.mp inside)]
    rfl

theorem passes_string (src : Source) : (string src).Passes src (· != quoteChar) where
  goesOn h := by
    show (!h.atEnd src && h.peek src 0 != [quoteChar]) = _
    rw [peek_eq]
    cases next : h.ahead src with
    | nil =>
        rw [atEnd_iff.mpr next]
        rfl
    | cons c rest =>
        rw [atEnd_eq_false next]
        exact singleton_bne c _
  round {h c rest} next _ := by
    show (h.advance src >>= fun taken =>
      .ok (if taken.1 = [Text.lineEnd] then taken.2.newLine else taken.2)) = _
    rw [advance_of_ahead next, Head.pass]
    show Except.ok (if [c] = [Text.lineEnd] then h.skip.newLine else h.skip) = _
    simp only [List.cons.injEq, and_true]

theorem passes_through {chars : Text} (same : ∀ c, Text.isIn [c] chars = p c)
    (inside_line : p Text.lineEnd = false) : (through src chars).Passes src p where
  goesOn h := by
    show (!(h.peek src 0).isEmpty && (h.peek src 0).isIn chars) = _
    rw [peek_eq]
    cases h.ahead src with
    | nil => rfl
    | cons c rest => exact same c
  round _ inside := by
    rw [pass_of_ne (ne_of_class inside inside_line)]
    rfl

theorem passes_digits (src : Source) : (through src digitChars).Passes src Char.isDigit :=
  passes_through isIn_digitChars (by decide)

theorem passes_nameParts (src : Source) : (through src namePartChars).Passes src isWordPart :=
  passes_through isIn_namePartChars (by decide)

theorem exists_passes_of_mem_inner {src : Source} {l : Loop} (mem : l ∈ inner src) :
    ∃ p, l.Passes src p := by
  rcases List.mem_cons.mp mem with rfl | mem
  · exact ⟨_, passes_comment src⟩
  rcases List.mem_cons.mp mem with rfl | mem
  · exact ⟨_, passes_string src⟩
  rcases List.mem_cons.mp mem with rfl | mem
  · exact ⟨_, passes_digits src⟩
  · obtain rfl := List.mem_singleton.mp mem
    exact ⟨_, passes_nameParts src⟩

end Loop

end Pseudocode

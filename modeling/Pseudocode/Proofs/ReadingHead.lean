import Pseudocode.Proofs.Cutting
import Pseudocode.Scan

/-!
# The reading head

Scanning character by character.  A reading head moves over a source with nothing but
offsets into the text, and each of its motions can fail where a text has no character at an
offset, or where a text is no number or no single character (`Breakdown`).  It goes in
loops, and a loop breaks down if it still goes on after as many rounds as it is given.

`Head.scan` is the scan that a head makes.  That it is `Source.scan` and that no head ever
breaks down is shown in `Pseudocode.Proofs.Progress`; here stand the motions, and what a
head sees of the text ahead of it (`Head.ahead`).
-/

namespace Pseudocode

/-! ## Texts as sets of characters -/

namespace Text

/-- Whether a text stands somewhere in another one.  The empty text stands everywhere. -/
def isIn (part : Text) : Text → Bool
  | [] => part.isEmpty
  | c :: whole => part.isPrefixOf (c :: whole) || isIn part whole

/-- The text between two offsets. -/
def slice (s : Text) (start stop : Nat) : Text :=
  (s.take stop).drop start

theorem isIn_singleton (c : Char) (whole : Text) : isIn [c] whole = whole.contains c := by
  induction whole with
  | nil => rfl
  | cons d whole ih =>
      rw [isIn, ih, List.contains_cons, List.isPrefixOf, List.isPrefixOf, Bool.and_true]

theorem slice_of_drop {s t rest : Text} {p : Nat} (ahead : s.drop p = t ++ rest) :
    s.slice p (p + t.length) = t := by
  rw [slice, List.drop_take, ahead, Nat.add_sub_cancel_left, List.take_left]

end Text

def separatorChars : Text :=
  " \r\t".toList

def digitChars : Text :=
  "0123456789".toList

def letterChars : Text :=
  "abcdefghijklmnopqrstuvwxyzABCDEFGHIJKLMNOPQRSTUVWXYZ".toList

def nameStartChars : Text :=
  letterChars ++ ['_']

def namePartChars : Text :=
  letterChars ++ digitChars ++ ['_']

theorem ne_of_class {p : Char → Bool} {c d : Char} (inside : p c) (outside : p d = false) :
    c ≠ d := by
  rintro rfl
  rw [outside] at inside
  exact Bool.noConfusion inside

theorem mem_map_ofNat_range' {c : Char} {a n : Nat} (low : a ≤ c.toNat) (high : c.toNat < a + n) :
    c ∈ (List.range' a n).map Char.ofNat :=
  List.mem_map.mpr ⟨c.toNat, List.mem_range'_1.mpr ⟨low, high⟩, c.ofNat_toNat⟩

theorem mem_digitChars {c : Char} : c ∈ digitChars ↔ c.isDigit := by
  constructor
  · intro mem
    have all : digitChars.all Char.isDigit = true := by decide
    exact List.all_eq_true.mp all c mem
  · intro digit
    have range : digitChars = (List.range' 48 10).map Char.ofNat := by decide
    obtain ⟨low, high⟩ := Char.isDigit_iff_toNat.mp digit
    rw [range]
    exact mem_map_ofNat_range' low (Nat.lt_succ_of_le high)

theorem mem_letterChars {c : Char} : c ∈ letterChars ↔ c.isAlpha := by
  constructor
  · intro mem
    have all : letterChars.all Char.isAlpha = true := by decide
    exact List.all_eq_true.mp all c mem
  · intro letter
    have ranges : letterChars =
        (List.range' 97 26).map Char.ofNat ++ (List.range' 65 26).map Char.ofNat := by
      decide
    rw [ranges]
    rcases Bool.or_eq_true_iff.mp letter with upper | lower
    · obtain ⟨low, high⟩ := of_decide_eq_true upper
      refine List.mem_append_right _ (mem_map_ofNat_range' low ?_)
      exact Nat.lt_succ_of_le high
    · obtain ⟨low, high⟩ := Bool.and_eq_true_iff.mp lower
      refine List.mem_append_left _ (mem_map_ofNat_range' (of_decide_eq_true low) ?_)
      exact Nat.lt_succ_of_le (of_decide_eq_true high)

theorem isIn_digitChars (c : Char) : Text.isIn [c] digitChars = c.isDigit := by
  rw [Text.isIn_singleton, Bool.eq_iff_iff, List.contains_iff_mem]
  exact mem_digitChars

theorem isIn_nameStartChars (c : Char) : Text.isIn [c] nameStartChars = isWordStart c := by
  rw [Text.isIn_singleton, Bool.eq_iff_iff, List.contains_iff_mem, nameStartChars, isWordStart,
    List.mem_append, List.mem_singleton, mem_letterChars, Bool.or_eq_true, beq_iff_eq]

theorem isIn_namePartChars (c : Char) : Text.isIn [c] namePartChars = isWordPart c := by
  rw [Text.isIn_singleton, Bool.eq_iff_iff, List.contains_iff_mem, namePartChars, isWordPart,
    isWordStart, List.mem_append, List.mem_append, List.mem_singleton, mem_letterChars,
    mem_digitChars, Bool.or_eq_true, Bool.or_eq_true, beq_iff_eq, or_right_comm]

/-- The separators are the blanks that end no line. -/
theorem isIn_separatorChars {c : Char} (inside_line : c ≠ Text.lineEnd) :
    Text.isIn [c] separatorChars = isBlank c := by
  have list : separatorChars = [' ', '\r', '\t'] := rfl
  rw [Text.isIn_singleton, Bool.eq_iff_iff, List.contains_iff_mem, isBlank_iff, list]
  simp only [List.mem_cons, List.not_mem_nil, inside_line, or_false]
  rw [or_comm (a := c = '\r')]

theorem isIn_separatorChars_of_not_blank {c : Char} (blank : isBlank c = false) :
    Text.isIn [c] separatorChars = false ∧ c ≠ Text.lineEnd := by
  have inside_line : c ≠ Text.lineEnd := Ne.symm (ne_of_class (by decide) blank)
  exact ⟨(isIn_separatorChars inside_line).trans blank, inside_line⟩

/-! ## Heads -/

/-- What makes a reading head break down. -/
inductive Breakdown where
  /-- The text has no character at the offset. -/
  | outOfText (offset : Nat)
  | refused (r : Refusal)
  /-- A loop goes on after its last round. -/
  | outOfRounds
deriving DecidableEq

/-- A reading head, with what it has found so far. -/
structure Head where
  /-- The offset at which the current lexeme starts. -/
  start : Nat
  /-- The offset of the next character. -/
  current : Nat
  line : Int
  /-- The offset of the first character of the current line. -/
  lineStart : Nat
  tokens : List Token
  diagnostics : Diagnostics
deriving DecidableEq

namespace Head

section

variable (src : Source) (h : Head)

/-- The head before it has moved. -/
def atStart : Head :=
  ⟨0, 0, src.line, 0, [], []⟩

def atEnd : Bool :=
  src.text.length ≤ h.current

/-- The character that stands `k` places ahead, or the empty text behind the end. -/
def peek (k : Nat) : Text :=
  src.text[h.current + k]?.toList

/-- The head one place on. -/
def skip : Head :=
  { h with current := h.current + 1 }

/-- Takes the next character, which must be there. -/
def advance : Except Breakdown (Text × Head) :=
  match src.text[h.current]? with
  | some c => .ok ([c], h.skip)
  | none => .error (.outOfText h.current)

/-- The head behind the expected character, if that is the next one. -/
def matched? (expected : Char) : Option Head :=
  if h.peek src 0 = [expected] then some h.skip else none

/-- The head on a new line, which starts at the next character. -/
def newLine : Head :=
  { h with line := h.line + 1, lineStart := h.current }

/-- Starts a lexeme at the next character. -/
def mark : Head :=
  { h with start := h.current }

/-- The text from the start of the lexeme on. -/
def lexeme : Text :=
  src.text.slice h.start h.current

def emit (kind : Kind) (literal : Option Literal) : Head :=
  { h with tokens := h.tokens ++ [⟨kind, h.lexeme src, literal, h.line⟩] }

/-- The location of an offset on the current line. -/
def location (p : Nat) : Location :=
  ⟨src.file, h.line, max ((p : Int) - h.lineStart) 0 + 1⟩

/-- The current line up to the next line end. -/
def lineText : Text :=
  (src.text.drop h.lineStart).takeWhile (· != Text.lineEnd)

def report (fault : Fault) (p : Nat) : Head :=
  { h with diagnostics :=
      h.diagnostics ++ [⟨fault, some (h.location src p), some (h.lineText src)⟩] }

end

end Head

/-! ## Loops -/

/-- A loop of a reading head: when it goes on, and what it does in one round. -/
structure Loop where
  goesOn : Head → Bool
  round : Head → Except Breakdown Head

namespace Loop

/-- Goes round until the loop does not go on.  It must have come to that when all rounds are
    used up. -/
def run (l : Loop) : Nat → Head → Except Breakdown Head
  | 0, h => if l.goesOn h then .error .outOfRounds else .ok h
  | n + 1, h => if l.goesOn h then l.round h >>= l.run n else .ok h

/-- The heads that the loop comes to from a head. -/
inductive Reaches (l : Loop) (h : Head) : Head → Prop
  | here : Reaches l h h
  | round {h' h'' : Head} (reaches : Reaches l h h') (on : l.goesOn h')
      (step : l.round h' = .ok h'') : Reaches l h h''

variable (src : Source)

/-- Moves to the end of the line. -/
def comment : Loop where
  goesOn h := !h.atEnd src && h.peek src 0 != [Text.lineEnd]
  round h := .ok h.skip

/-- Moves to the next quote, over line ends too. -/
def string : Loop where
  goesOn h := !h.atEnd src && h.peek src 0 != [quoteChar]
  round h := do
    let (char, h) ← h.advance src
    return if char = [Text.lineEnd] then h.newLine else h

/-- Moves over characters of a set.  The first test is needed, since behind the end the second
    one always holds. -/
def through (chars : Text) : Loop where
  goesOn h := !(h.peek src 0).isEmpty && (h.peek src 0).isIn chars
  round h := .ok h.skip

/-- The loops within a lexeme or a comment.  The third one is that of the digits on both sides
    of a point. -/
def inner : List Loop :=
  [comment src, string src, through src digitChars, through src namePartChars]

end Loop

/-! ## Scanning -/

namespace Head

section

variable (src : Source) (rounds : Nat) (h : Head)

/-- Scans a string whose first quote has been taken. -/
def scanString : Except Breakdown Head := do
  let h ← (Loop.string src).run rounds h
  if h.atEnd src then
    return h.report src .unterminatedString h.current
  else
    let (_, h) ← h.advance src
    return h.emit src .string (some (.text (src.text.slice (h.start + 1) (h.current - 1))))

/-- Whether a point comes next and a digit behind it. -/
def pointAhead : Bool :=
  h.peek src 0 == ['.'] && !(h.peek src 1).isEmpty && (h.peek src 1).isIn digitChars

/-- Moves over the point and the digits behind it, if they come next. -/
def passFraction : Except Breakdown Head :=
  if h.pointAhead src then (Loop.through src digitChars).run rounds h.skip else .ok h

/-- Scans a number whose first digit has been taken. -/
def scanNumber : Except Breakdown Head := do
  let h ← (Loop.through src digitChars).run rounds h
  let h ← h.passFraction src rounds
  let x ← (Literal.ofNumberText (h.lexeme src)).mapError .refused
  return h.emit src .number (some x)

/-- Scans a name whose first character has been taken, and looks whether it is a keyword. -/
def scanName : Except Breakdown Head := do
  let h ← (Loop.through src namePartChars).run rounds h
  return h.emit src (.ofWord (h.lexeme src)) none

/-- Scans on behind a character that spells the operator.  It may be the first one of a longer
    operator or of a comment. -/
def scanOperator (o : Operator) : Except Breakdown Head :=
  match o.withEqual? with
  | some longer =>
    match h.matched? src '=' with
    | some h => .ok (h.emit src (.operator longer) none)
    | none => .ok (h.emit src (.operator o) none)
  | none =>
    if o = .slash then
      match h.matched? src '/' with
      | some h => (Loop.comment src).run rounds h
      | none => .ok (h.emit src (.operator o) none)
    else .ok (h.emit src (.operator o) none)

/-- The operator that the text spells if it is one character. -/
def operator? : Text → Option Operator
  | [c] => Operator.ofChar? c
  | _ => none

/-- Scans one piece of the source, from the start of the lexeme on. -/
def scanToken : Except Breakdown Head := do
  let (char, h) ← h.advance src
  match operator? char with
  | some o => h.scanOperator src rounds o
  | none =>
    if char.isIn separatorChars then return h
    else if char = [Text.lineEnd] then return h.newLine
    else if char = [quoteChar] then h.scanString src rounds
    else if char.isIn digitChars then h.scanNumber src rounds
    else if char.isIn nameStartChars then h.scanName src rounds
    else
      let fault ← (Fault.ofCharacterText char).mapError .refused
      return h.report src fault h.start

end

end Head

/-- The loop over the pieces of a source, within which every loop has so many rounds. -/
def Loop.main (src : Source) (rounds : Nat) : Loop where
  goesOn h := !h.atEnd src
  round h := h.mark.scanToken src rounds

/-- The scan that a reading head makes in so many rounds of each loop. -/
def Head.scan (src : Source) (rounds : Nat) : Except Breakdown Scan := do
  let h ← (Loop.main src rounds).run rounds (.atStart src)
  return ⟨src.file, h.tokens ++ [.eof h.line], h.diagnostics⟩

/-! ## What lies ahead -/

namespace Head

variable {src : Source} {h : Head} {c : Char} {rest : Text}

/-- The text that the head has not passed. -/
def ahead (src : Source) (h : Head) : Text :=
  src.text.drop h.current

theorem atEnd_iff : h.atEnd src ↔ h.ahead src = [] := by
  rw [atEnd, ahead, List.drop_eq_nil_iff, decide_eq_true_eq]

theorem atEnd_eq_false (next : h.ahead src = c :: rest) : h.atEnd src = false := by
  rw [Bool.eq_false_iff, ne_eq, atEnd_iff, next]
  exact List.cons_ne_nil c rest

theorem peek_eq (src : Source) (h : Head) (k : Nat) :
    h.peek src k = (h.ahead src)[k]?.toList := by
  rw [peek, ahead, List.getElem?_drop]

theorem advance_of_ahead (next : h.ahead src = c :: rest) :
    h.advance src = .ok ([c], h.skip) := by
  have here : src.text[h.current]? = some c := by
    rw [← List.head?_drop]
    exact congrArg List.head? next
  rw [advance, here]

theorem ahead_skip (next : h.ahead src = c :: rest) : h.skip.ahead src = rest := by
  show src.text.drop (h.current + 1) = rest
  rw [← List.tail_drop]
  exact congrArg List.tail next

end Head

end Pseudocode

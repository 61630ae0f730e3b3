import Pseudocode.Proofs.Partition

/-!
# Modes

The faults of a text can be told without cutting it into pieces.  An automaton with four
modes reads the text character by character; it never looks ahead, and it knows no
lexeme but the quote and the slash.  It finds the same stray characters as a scan, and it
ends inside a string exactly if a scan reports an open one (`scan_faults_by_modes`).  The
route:

* `Piece.reads`: from code, the text of a piece that fits leads to the mode of the piece,
  and finds its stray character, if it is one;
* `Piece.Fits.resumes`: a piece may leave the automaton behind a slash or in a comment, but
  what follows a piece that fits is read from there as it is read from code.  This is
  where the lookahead of the cut is made up for;
* `reads_flatMap_text` puts the pieces together, by induction on the pieces.
-/

namespace Pseudocode

/-- What a reader of single characters is in the middle of. -/
inductive Mode where
  | code
  /-- Code behind a slash, which becomes a comment if another slash follows. -/
  | afterSlash
  | comment
  | string
deriving DecidableEq

namespace Mode

/-- The mode behind a character. -/
def next : Mode → Char → Mode
  | string, c => if c = quoteChar then code else string
  | comment, c => if c = Text.lineEnd then code else comment
  | code, c => if c = quoteChar then string else if c = '/' then afterSlash else code
  | afterSlash, c => if c = quoteChar then string else if c = '/' then comment else code

/-- The characters that may stand in code besides letters, digits, quotes and slashes. -/
def signs : Text :=
  [' ', '\t', '\r', '\n', '_', '(', ')', '{', '}', ',', '.', '-', '+', ';', '*', '^',
   '!', '=', '<', '>']

/-- Whether the character is a fault.  Comments and strings hold any character. -/
def isBad : Mode → Char → Bool
  | string, _ | comment, _ => false
  | code, c | afterSlash, c =>
    !(c.isAlpha || c.isDigit || signs.contains c || c == quoteChar || c == '/')

/-- The mode behind a text. -/
def after (m : Mode) (s : Text) : Mode :=
  s.foldl next m

/-- The faults in a text, from left to right. -/
def bad (m : Mode) : Text → List Char
  | [] => []
  | c :: s => if m.isBad c then c :: (m.next c).bad s else (m.next c).bad s

/-- The text leads from one mode to another, with these faults on the way. -/
structure Reads (m : Mode) (s : Text) (m' : Mode) (faults : List Char) : Prop where
  after : m.after s = m'
  bad : m.bad s = faults

namespace Reads

variable {m m' m'' : Mode} {s t : Text} {xs ys : List Char}

theorem nil : Reads m [] m [] :=
  ⟨rfl, rfl⟩

theorem cons {c : Char} (h : Reads (m.next c) s m' xs) :
    Reads m (c :: s) m' (if m.isBad c then c :: xs else xs) := by
  refine ⟨h.after, ?_⟩
  show (if m.isBad c then c :: (m.next c).bad s else (m.next c).bad s) = _
  rw [h.bad]

theorem append (h : Reads m s m' xs) (k : Reads m' t m'' ys) :
    Reads m (s ++ t) m'' (xs ++ ys) := by
  induction s generalizing m xs with
  | nil =>
      obtain ⟨rfl, rfl⟩ := h
      exact k
  | cons c s ih =>
      obtain ⟨after, rfl⟩ := h
      have rest := (ih ⟨after, rfl⟩).cons
      refine ⟨rest.after, ?_⟩
      rw [List.cons_append, rest.bad]
      show _ = (if m.isBad c then c :: (m.next c).bad s else (m.next c).bad s) ++ ys
      by_cases fault : m.isBad c
      · rw [if_pos fault, if_pos fault, List.cons_append]
      · rw [if_neg fault, if_neg fault]

/-- A mode that every character keeps without a fault is kept by the text. -/
theorem keep (h : ∀ c ∈ s, m.next c = m ∧ m.isBad c = false) : Reads m s m [] := by
  induction s with
  | nil => exact nil
  | cons c s ih =>
      obtain ⟨same, good⟩ := h c List.mem_cons_self
      have rest := ih fun d mem => h d (List.mem_cons_of_mem c mem)
      have whole := @cons m m s [] c (same.symm ▸ rest)
      rwa [good] at whole

/-- Two modes that agree on the first character of a text agree on the text. -/
theorem of_head {c : Char} (next : m.next c = m'.next c) (bad : m.isBad c = m'.isBad c)
    (h : Reads m' (c :: s) m'' xs) : Reads m (c :: s) m'' xs := by
  obtain ⟨rfl, rfl⟩ := h
  refine ⟨?_, ?_⟩
  · show (m.next c).after s = (m'.next c).after s
    rw [next]
  · show (if m.isBad c then c :: (m.next c).bad s else (m.next c).bad s) =
      if m'.isBad c then c :: (m'.next c).bad s else (m'.next c).bad s
    rw [next, bad]

end Reads

/-! ## Characters in code -/

/-- A part of a word is no fault in code and leads nowhere else. -/
theorem code_wordPart {c : Char} (part : isWordPart c) :
    code.next c = code ∧ code.isBad c = false := by
  have isNot : ∀ d, isWordPart d = false → c ≠ d := by
    rintro d other rfl
    rw [other] at part
    exact Bool.noConfusion part
  have letter : (c.isAlpha = true ∨ c = '_') ∨ c.isDigit = true := by
    simpa [isWordPart, isWordStart] using part
  constructor
  · show (if c = quoteChar then string else if c = '/' then afterSlash else code) = code
    rw [if_neg (isNot quoteChar (by decide)), if_neg (isNot '/' (by decide))]
  · rcases letter with (alpha | rfl) | digit
    · simp [isBad, alpha]
    · decide
    · simp [isBad, digit]

theorem code_digit {c : Char} (digit : c.isDigit) : code.next c = code ∧ code.isBad c = false :=
  code_wordPart (isWordPart_of_isDigit digit)

/-- A character that starts nothing is a fault in code, and code goes on behind it. -/
theorem code_stray {c : Char} (nothing : StartsNothing c) :
    code.next c = code ∧ code.isBad c = true := by
  obtain ⟨blank, quote, digit, start, op⟩ := startsNothing_iff.mp nothing
  have slash : c ≠ '/' := by
    rintro rfl
    exact absurd op (by decide)
  have alpha : c.isAlpha = false := by
    have parts : c.isAlpha = false ∧ c ≠ '_' := by simpa [isWordStart] using start
    exact parts.1
  have sign : c ∉ signs := by
    have known : signs.all fun d =>
        isBlank d || isWordStart d || (Operator.ofChar? d).isSome := by decide
    intro mem
    have started := List.all_eq_true.mp known c mem
    simp [blank, start, op] at started
  constructor
  · show (if c = quoteChar then string else if c = '/' then afterSlash else code) = code
    rw [if_neg quote, if_neg slash]
  · simp [isBad, alpha, digit, sign, quote, slash]

end Mode

/-! ## Pieces -/

open Mode

/-- The character that the fault names. -/
def Fault.character? : Fault → Option Char
  | unexpectedCharacter c => some c
  | _ => none

namespace Piece

/-- The stray character that the piece is. -/
def stray? (p : Piece) : Option Char :=
  p.fault?.bind Fault.character?

/-- The mode that the piece leaves the automaton in. -/
def mode : Piece → Mode
  | lexeme (.operator .slash) => .afterSlash
  | comment _ => .comment
  | openString _ => .string
  | _ => .code

theorem reads_string {body : Text} (noQuote : quoteChar ∉ body) :
    Reads .code (quoteChar :: body) .string [] := by
  have inside : ∀ c ∈ body, Mode.string.next c = .string ∧ Mode.string.isBad c = false := by
    intro c mem
    exact ⟨if_neg fun same : c = quoteChar => noQuote (same ▸ mem), rfl⟩
  have opening : Reads .code [quoteChar] .string [] := ⟨rfl, rfl⟩
  exact opening.append (Reads.keep inside)

theorem reads_comment {body : Text} (inside_line : Text.lineEnd ∉ body) :
    Reads .code ('/' :: '/' :: body) .comment [] := by
  have inside : ∀ c ∈ body, Mode.comment.next c = .comment ∧ Mode.comment.isBad c = false := by
    intro c mem
    exact ⟨if_neg fun same : c = Text.lineEnd => inside_line (same ▸ mem), rfl⟩
  have opening : Reads .code ['/', '/'] .comment [] := ⟨rfl, rfl⟩
  exact opening.append (Reads.keep inside)

theorem reads_lexeme {l : Lexeme} (wf : l.WellFormed) :
    Reads .code l.text (lexeme l).mode [] := by
  cases l with
  | operator o => cases o <;> exact ⟨rfl, rfl⟩
  | word letters => exact Reads.keep fun d mem => code_wordPart (wf.forall_isWordPart d mem)
  | number whole fraction =>
      obtain ⟨⟨-, digits⟩, behindPoint⟩ := wf
      have front := Reads.keep fun d mem => code_digit (digits d mem)
      cases fraction with
      | none => exact front
      | some fraction =>
          have behind := Reads.keep fun d mem => code_digit ((behindPoint fraction rfl).2 d mem)
          have point : Reads .code ['.'] .code [] := ⟨rfl, rfl⟩
          exact front.append (point.append behind)
  | string body =>
      have closing : Reads .string [quoteChar] .code [] := ⟨rfl, rfl⟩
      exact (reads_string wf).append closing

/-- **A piece that fits is read from code** to the mode of the piece, and the fault found on
    the way is the stray character that it is. -/
theorem reads {p : Piece} {rest : Text} (fits : p.Fits rest) :
    Reads .code p.text p.mode p.stray?.toList := by
  cases p with
  | lexeme l => exact reads_lexeme (fits_lexeme.mp fits).1
  | blank c =>
      rcases isBlank_iff.mp fits.1 with rfl | rfl | rfl | rfl <;> exact ⟨rfl, rfl⟩
  | comment body => exact reads_comment fits.1.1
  | stray c =>
      obtain ⟨same, fault⟩ := code_stray fits.1
      have found : Reads .code [c] (Mode.code.next c) (if Mode.code.isBad c then [c] else []) :=
        Reads.nil.cons
      rwa [same, if_pos fault] at found
  | openString body => exact reads_string fits.1.1

/-- **What follows a piece that fits is read as from code**, although the piece may leave the
    automaton behind a slash or in a comment: no slash follows the one, and if anything follows
    the other, it is a line end.  Nothing follows an open string. -/
theorem Fits.resumes {p : Piece} {rest : Text} (fits : p.Fits rest) {c : Char}
    (front : rest.head? = some c) :
    p.mode.next c = Mode.code.next c ∧ p.mode.isBad c = Mode.code.isBad c := by
  cases p with
  | lexeme l =>
      cases l with
      | operator o =>
          cases o with
          | slash =>
              have noSlash : c ≠ '/' := by
                rintro rfl
                exact (fits_lexeme.mp fits).2.2 rfl front
              refine ⟨?_, rfl⟩
              show (if c = quoteChar then Mode.string else if c = '/' then .comment else .code) =
                if c = quoteChar then Mode.string else if c = '/' then .afterSlash else .code
              rw [if_neg noSlash, if_neg noSlash]
          | _ => exact ⟨rfl, rfl⟩
      | _ => exact ⟨rfl, rfl⟩
  | comment body =>
      have lineEnd : c = Text.lineEnd := by
        have ends := fits.1.2 c front
        simpa using ends
      subst lineEnd
      exact ⟨rfl, rfl⟩
  | openString body =>
      rw [fits.1.2] at front
      exact nomatch front
  | _ => exact ⟨rfl, rfl⟩

end Piece

/-! ## Texts -/

/-- The mode behind pieces, if none of them changes it. -/
def modeBehind (m : Mode) (ps : List Piece) : Mode :=
  ps.foldl (fun _ p => p.mode) m

/-- Pieces that fit are read one by one, from any mode that reads their text as code does. -/
theorem reads_flatMap_text {ps : List Piece} (fit : FitBefore ps []) {m : Mode}
    (resumes : ∀ c, (ps.flatMap Piece.text).head? = some c →
      m.next c = Mode.code.next c ∧ m.isBad c = Mode.code.isBad c) :
    Reads m (ps.flatMap Piece.text) (modeBehind m ps) (ps.filterMap Piece.stray?) := by
  induction ps generalizing m with
  | nil => exact Reads.nil
  | cons p ps ih =>
      obtain ⟨fits, later⟩ := fit
      rw [List.append_nil] at fits
      obtain ⟨c, s, text⟩ := List.exists_cons_of_ne_nil fits.text_ne_nil
      have here : Reads m p.text p.mode p.stray?.toList := by
        have same := resumes c (by rw [List.flatMap_cons, text]; rfl)
        have read := Piece.reads fits
        rw [text] at read ⊢
        exact read.of_head same.1 same.2
      have behind := ih later fun _ front => fits.resumes front
      have strays : (p :: ps).filterMap Piece.stray? =
          p.stray?.toList ++ ps.filterMap Piece.stray? := by
        rw [List.filterMap_cons]
        cases p.stray? <;> rfl
      rw [strays]
      exact here.append behind

theorem Piece.mode_eq_string_iff {p : Piece} :
    p.mode = .string ↔ p.fault? = some .unterminatedString := by
  cases p with
  | openString body => exact ⟨fun _ => rfl, fun _ => rfl⟩
  | lexeme l =>
      cases l with
      | operator o => cases o <;> exact ⟨nofun, nofun⟩
      | _ => exact ⟨nofun, nofun⟩
  | _ => exact ⟨nofun, nofun⟩

/-- Pieces that fit end inside a string exactly if one of them is an open string. -/
theorem modeBehind_eq_string_iff {ps : List Piece} (fit : FitBefore ps []) {m : Mode}
    (outside : m ≠ .string) :
    modeBehind m ps = .string ↔ ∃ p ∈ ps, p.fault? = some .unterminatedString := by
  induction ps generalizing m with
  | nil =>
      constructor
      · intro inside
        exact absurd inside outside
      · rintro ⟨p, mem, -⟩
        exact absurd mem List.not_mem_nil
  | cons p ps ih =>
      by_cases isOpen : p.fault? = some .unterminatedString
      · -- the open string is the last piece, so its mode is the last one
        obtain rfl : ps = [] := by
          cases p with
          | openString body => exact fit.nil_of_openString
          | _ => exact nomatch isOpen
        constructor
        · intro _
          exact ⟨p, List.mem_cons_self, isOpen⟩
        · intro _
          exact Piece.mode_eq_string_iff.mpr isOpen
      · have behind := ih fit.2 fun inside => isOpen (Piece.mode_eq_string_iff.mp inside)
        constructor
        · intro inside
          obtain ⟨q, mem, fault⟩ := behind.mp inside
          exact ⟨q, List.mem_cons_of_mem p mem, fault⟩
        · rintro ⟨q, mem, fault⟩
          rcases List.mem_cons.mp mem with rfl | mem
          · exact absurd fault isOpen
          · exact behind.mpr ⟨q, mem, fault⟩

/-- The automaton reads any text from code, to the mode behind its pieces. -/
theorem reads_text (s : Text) :
    Reads .code s (modeBehind .code (pieces s)) ((pieces s).filterMap Piece.stray?) := by
  have read := @reads_flatMap_text _ (fitBefore_pieces s) .code fun _ _ => ⟨rfl, rfl⟩
  rwa [flatMap_text_pieces] at read

/-! ## Faults of a scan -/

theorem Source.map_fault_diagnostics (src : Source) :
    src.scan.diagnostics.map Diagnostic.fault = (pieces src.text).filterMap Piece.fault? :=
  map_fault_diagnosticsOf _ _ _

/-- Every diagnostic has a piece whose fault it tells. -/
theorem Source.exists_fault?_of_mem {src : Source} {d : Diagnostic}
    (mem : d ∈ src.scan.diagnostics) : ∃ p ∈ pieces src.text, p.fault? = some d.fault := by
  have fault := List.mem_map_of_mem (f := Diagnostic.fault) mem
  rw [src.map_fault_diagnostics] at fault
  exact List.mem_filterMap.mp fault

theorem Source.filterMap_character?_diagnostics (src : Source) :
    src.scan.diagnostics.filterMap (·.fault.character?) = Mode.code.bad src.text := by
  calc src.scan.diagnostics.filterMap (·.fault.character?)
      = (src.scan.diagnostics.map Diagnostic.fault).filterMap Fault.character? := by
        rw [List.filterMap_map]
        rfl
    _ = (pieces src.text).filterMap Piece.stray? := by
        rw [src.map_fault_diagnostics, List.filterMap_filterMap]
        rfl
    _ = Mode.code.bad src.text := (reads_text src.text).bad.symm

theorem Source.exists_unterminatedString_iff (src : Source) :
    (∃ d ∈ src.scan.diagnostics, d.fault = .unterminatedString) ↔
      Mode.code.after src.text = .string := by
  rw [(reads_text src.text).after, modeBehind_eq_string_iff (fitBefore_pieces _) (by decide)]
  constructor
  · rintro ⟨d, mem, fault⟩
    obtain ⟨p, piece, same⟩ := exists_fault?_of_mem mem
    exact ⟨p, piece, fault ▸ same⟩
  · rintro ⟨p, piece, fault⟩
    have found := List.mem_filterMap.mpr ⟨p, piece, fault⟩
    rw [← src.map_fault_diagnostics] at found
    exact List.mem_map.mp found

/-- A scan without diagnostics of either fault has none. -/
theorem Source.diagnostics_eq_nil {src : Source}
    (noCharacter : src.scan.diagnostics.filterMap (·.fault.character?) = [])
    (noString : ¬ ∃ d ∈ src.scan.diagnostics, d.fault = .unterminatedString) :
    src.scan.diagnostics = [] := by
  refine List.eq_nil_iff_forall_not_mem.mpr fun d mem => ?_
  obtain ⟨p, -, fault⟩ := exists_fault?_of_mem mem
  cases p with
  | stray c =>
      have none := List.filterMap_eq_nil_iff.mp noCharacter d mem
      rw [← Option.some.inj fault] at none
      exact nomatch none
  | openString body => exact noString ⟨d, mem, (Option.some.inj fault).symm⟩
  | _ => exact nomatch fault

/-- **A scan reports what four modes find.**  For every source
    1. the characters that are reported as unexpected are, in order, those that the
       automaton finds bad;
    2. an unterminated string is reported exactly if the automaton ends inside a string;
    3. hence a scan has no errors exactly if no character is bad and the end is not inside a
       string. -/
theorem scan_faults_by_modes (src : Source) :
    src.scan.diagnostics.filterMap (·.fault.character?) = Mode.code.bad src.text ∧
    ((∃ d ∈ src.scan.diagnostics, d.fault = .unterminatedString) ↔
      Mode.code.after src.text = .string) ∧
    (src.scan.hasErrors = false ↔
      Mode.code.bad src.text = [] ∧ Mode.code.after src.text ≠ .string) := by
  have characters := src.filterMap_character?_diagnostics
  have strings := src.exists_unterminatedString_iff
  refine ⟨characters, strings, ?_⟩
  have empty : src.scan.hasErrors = false ↔ src.scan.diagnostics = [] := by
    rw [Scan.hasErrors, Bool.not_eq_false', List.isEmpty_iff]
  rw [empty, ← characters, ne_eq, ← strings]
  constructor
  · intro none
    rw [none]
    exact ⟨rfl, fun ⟨_, mem, _⟩ => absurd mem List.not_mem_nil⟩
  · rintro ⟨noCharacter, noString⟩
    exact Source.diagnostics_eq_nil noCharacter noString

/-- Quotes in comments, slashes in strings, and a slash before a quote. -/
example : Mode.code.bad "// # \"\n#\"// #\" /@/\"#".toList = ['#', '@'] ∧
    Mode.code.after "// # \"\n#\"// #\" /@/\"#".toList = .string := by
  decide

end Pseudocode

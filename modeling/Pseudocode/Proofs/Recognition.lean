import Pseudocode.Proofs.Denotation
import Pseudocode.Proofs.Juxtaposition
import Pseudocode.Proofs.Printed

/-!
# Recognition

A token is known by its lexeme (`tokens_known_by_lexeme`).  What a scan emits is sound
(`Token.Sound`): each kind has lexemes of its own form, said here as sets of texts, the words
of the keyword table belong to their keywords and to nothing else, and the literal is the value
that the lexeme writes.  So it does not matter where a lexeme was found: scanned alone it gives
the same token again.

The tokens that can be found are those of well-formed lexemes (`Token.Found`), and a well-formed
lexeme denotes its kind and its literal (`Lexeme.denotes`), so the proof is one case for
each way to denote something.
-/

namespace Pseudocode

/-! ## Forms of lexemes -/

/-- Digits, at least one. -/
def IsDigits (w : Text) : Prop :=
  w ≠ [] ∧ ∀ c ∈ w, c.isDigit

/-- Digits, and perhaps a point with digits behind it. -/
def IsNumeral (w : Text) : Prop :=
  IsDigits w ∨ ∃ whole fraction, IsDigits whole ∧ IsDigits fraction ∧ w = whole ++ '.' :: fraction

/-- An ASCII letter or an underscore, and then such letters, digits and underscores. -/
def IsName (w : Text) : Prop :=
  ∃ c rest, w = c :: rest ∧ (c.isAlpha ∨ c = '_') ∧ ∀ d ∈ rest, d.isAlphanum ∨ d = '_'

/-- The token is what its lexeme says: each kind has its own form of lexemes, and the literal is the
    value that the lexeme writes. -/
structure Token.Sound (t : Token) : Prop where
  string : t.kind = .string → ∃ body, quoteChar ∉ body ∧
    t.lexeme = quoteChar :: body ++ [quoteChar] ∧ t.literal = some (.text body)
  number : t.kind = .number → IsNumeral t.lexeme ∧
    ∃ x, Double.parse? t.lexeme = some x ∧ t.literal = some (.number x)
  identifier : t.kind = .identifier → IsName t.lexeme ∧ ∀ k : Keyword, t.lexeme ≠ k.spelling
  operator : ∀ o, t.kind = .operator o → t.lexeme = o.spelling
  keyword : ∀ k, t.kind = .keyword k ↔ t.lexeme = k.spelling
  no_literal : t.kind ≠ .string → t.kind ≠ .number → t.literal = none

/-! ## Lexemes that denote -/

theorem Keyword.isWordStart_of_mem_spelling {k : Keyword} {c : Char} (mem : c ∈ k.spelling) :
    isWordStart c := by
  have all : k.spelling.all isWordStart = true := by
    cases k with
    | typeName t => cases t <;> decide
    | _ => decide
  exact List.all_eq_true.mp all c mem

theorem Keyword.spelling_ne_nil (k : Keyword) : k.spelling ≠ [] := by
  intro empty
  have none : ofText? [] = none := by decide
  have known := ofText?_spelling k
  rw [empty, none] at known
  exact nomatch known

/-- A keyword has the form of a word. -/
theorem Keyword.wellFormed_spelling (k : Keyword) : (Lexeme.word k.spelling).WellFormed :=
  Lexeme.wellFormed_word k.spelling_ne_nil fun _ mem => Keyword.isWordStart_of_mem_spelling mem

theorem Keyword.spelling_injective {k k' : Keyword} (same : k.spelling = k'.spelling) : k = k' := by
  have known := ofText?_spelling k
  rw [same, ofText?_spelling, Option.some.injEq] at known
  exact known.symm

namespace Lexeme

theorem isNumeral_text {whole : Text} {fraction : Option Text}
    (wf : (number whole fraction).WellFormed) : IsNumeral (number whole fraction).text := by
  obtain ⟨digits, behindPoint⟩ := wf
  cases fraction with
  | none => exact .inl digits
  | some fraction => exact .inr ⟨whole, fraction, digits, behindPoint fraction rfl, rfl⟩

theorem isName_text {letters : Text} (wf : (word letters).WellFormed) : IsName letters := by
  obtain ⟨c, rest, rfl, start, parts⟩ := wf
  refine ⟨c, rest, rfl, ?_, ?_⟩
  · simpa [isWordStart] using start
  · intro d mem
    have part := parts d mem
    simp only [isWordPart, isWordStart, Bool.or_eq_true, beq_iff_eq] at part
    rw [Char.isAlphanum, Bool.or_eq_true]
    tauto

variable {l : Lexeme} {kind : Kind} {literal : Option Literal}

/-- A lexeme denotes a keyword exactly if it spells it. -/
theorem Denotes.kind_eq_keyword_iff (denotes : l.Denotes kind literal) (wf : l.WellFormed)
    {k : Keyword} : kind = .keyword k ↔ l.text = k.spelling := by
  constructor
  · rintro rfl
    cases denotes with
    | keyword k => rfl
  · intro same
    have spells : l = .word k.spelling := eq_of_text_eq wf k.wellFormed_spelling same
    cases denotes with
    | keyword k' => rw [Keyword.spelling_injective (word.inj spells)]
    | identifier reserved => exact absurd (word.inj spells) (reserved k)
    | _ => exact nomatch spells

theorem Denotes.sound (denotes : l.Denotes kind literal) (wf : l.WellFormed) (line : Int) :
    Token.Sound ⟨kind, l.text, literal, line⟩ := by
  have keyword : ∀ k, kind = .keyword k ↔ l.text = k.spelling :=
    fun k => denotes.kind_eq_keyword_iff wf
  cases denotes with
  | operator o =>
      refine ⟨nofun, nofun, nofun, ?_, keyword, fun _ _ => rfl⟩
      intro o' same
      rw [Kind.operator.inj same]
      rfl
  | keyword k => exact ⟨nofun, nofun, nofun, nofun, keyword, fun _ _ => rfl⟩
  | identifier reserved =>
      exact ⟨nofun, nofun, fun _ => ⟨isName_text wf, reserved⟩, nofun, keyword, fun _ _ => rfl⟩
  | number reads =>
      exact ⟨nofun, fun _ => ⟨isNumeral_text wf, _, reads, rfl⟩, nofun, nofun, keyword,
        fun _ other => absurd rfl other⟩
  | string body =>
      exact ⟨fun _ => ⟨body, wf, rfl, rfl⟩, nofun, nofun, nofun, keyword,
        fun other => absurd rfl other⟩

end Lexeme

/-! ## Tokens that are found -/

namespace Token

variable {t t' : Token}

theorem Found.sound (found : t.Found) : t.Sound := by
  cases found with
  | lexeme wf line => exact (Lexeme.denotes wf).sound wf line
  | eof line =>
      refine ⟨nofun, nofun, nofun, nofun, ?_, fun _ _ => rfl⟩
      intro k
      exact iff_of_false nofun fun empty => k.spelling_ne_nil empty.symm

/-- A token is a keyword exactly if its lexeme is in the keyword table. -/
theorem Sound.isKeyword_iff (sound : t.Sound) :
    t.isKeyword ↔ ∃ k : Keyword, t.lexeme = k.spelling := by
  unfold isKeyword
  cases known : Keyword.ofText? t.lexeme with
  | none =>
      refine iff_of_false nofun ?_
      rintro ⟨k, spelled⟩
      rw [Keyword.ofText?_eq_some_iff.mpr spelled] at known
      exact nomatch known
  | some k =>
      have spelled := Keyword.ofText?_eq_some_iff.mp known
      exact iff_of_true (decide_eq_true ((sound.keyword k).mpr spelled)) ⟨k, spelled⟩

theorem Sound.isKeyword_of_isTypeName (sound : t.Sound) (isType : t.isTypeName) : t.isKeyword := by
  refine sound.isKeyword_iff.mpr ?_
  unfold isTypeName Kind.isTypeName at isType
  split at isType
  · rename_i type kind
    exact ⟨.typeName type, (sound.keyword _).mp kind⟩
  · exact nomatch isType

/-- Tokens that are found with the same lexeme are alike. -/
theorem Found.alike (found : t.Found) (found' : t'.Found) (same : t'.lexeme = t.lexeme) :
    t.Alike t' :=
  (found.read found' (congrArg (· ++ ' ' :: []) same.symm)).1

/-- **A lexeme that is scanned alone** is the one token of the scan. -/
theorem Found.scan_lexeme (found : t.Found) (inside : t.kind ≠ .eof) (file : Text) (n : Int) :
    (Source.scan ⟨t.lexeme, file, n⟩).tokens =
      [{ t with line := n + t.lexeme.count Text.lineEnd },
        .eof (n + t.lexeme.count Text.lineEnd)] ∧
    (Source.scan ⟨t.lexeme, file, n⟩).diagnostics = [] := by
  cases found with
  | eof line => exact absurd rfl inside
  | @lexeme l wf line =>
      have cut := pieces_lexeme wf l.endsBefore_nil
      rw [List.append_nil, pieces_nil] at cut
      constructor
      · show tokensOf _ (pieces l.text) ++ [Token.eof (Cursor.advance _ l.text).line] = _
        rw [cut]
        show [l.token (Cursor.advance _ l.text).line] ++ [Token.eof _] = _
        rw [Cursor.line_advance]
        rfl
      · show diagnosticsOf _ _ (pieces l.text) = []
        rw [cut]
        rfl

end Token

/-- **A token is known by its lexeme.**  Every token of a scan
    1. is what its lexeme says;
    2. is a keyword exactly if its lexeme is in the keyword table, and is one if it names a
       type;
    3. is found again if its lexeme is scanned alone, unless it is the end token: then the scan
       finds this token, but for its line, and the end, and reports nothing;
    4. has the kind and the literal of any other token, of any scan, that has the same lexeme. -/
theorem tokens_known_by_lexeme {src : Source} {t : Token} (mem : t ∈ src.scan.tokens) :
    t.Sound ∧ (t.isKeyword ↔ ∃ k : Keyword, t.lexeme = k.spelling) ∧
    (t.isTypeName → t.isKeyword) ∧
    (t.kind ≠ .eof → ∀ (file : Text) (n : Int), ∃ m,
      (Source.scan ⟨t.lexeme, file, n⟩).tokens = [{ t with line := m }, .eof m] ∧
      (Source.scan ⟨t.lexeme, file, n⟩).diagnostics = []) ∧
    ∀ (src' : Source) (t' : Token), t' ∈ src'.scan.tokens → t'.lexeme = t.lexeme → t.Alike t' := by
  have found := Source.found_of_mem mem
  have sound := found.sound
  refine ⟨sound, sound.isKeyword_iff, sound.isKeyword_of_isTypeName, ?_, ?_⟩
  · intro inside file n
    exact ⟨_, found.scan_lexeme inside file n⟩
  · intro src' t' mem' same
    exact found.alike (Source.found_of_mem mem') same

/-- A string that goes across a line end and holds a keyword, found behind a fault. -/
theorem tokens_known_by_lexeme_string :
    (⟨.string, "\"si\n\"".toList, some (.text "si\n".toList), 2⟩ : Token) ∈
      (Source.scan ⟨"# \"si\n\"1".toList, "p".toList, 1⟩).tokens ∧
    ∃ m, (Source.scan ⟨"\"si\n\"".toList, "q".toList, 7⟩).tokens =
      [⟨.string, "\"si\n\"".toList, some (.text "si\n".toList), m⟩, .eof m] := by
  have mem : (⟨.string, "\"si\n\"".toList, some (.text "si\n".toList), 2⟩ : Token) ∈
      (Source.scan ⟨"# \"si\n\"1".toList, "p".toList, 1⟩).tokens := by decide +kernel
  obtain ⟨-, -, -, alone, -⟩ := tokens_known_by_lexeme mem
  obtain ⟨m, tokens, -⟩ := alone (by decide) "q".toList 7
  exact ⟨mem, m, tokens⟩

end Pseudocode

import Pseudocode.Proofs.Denotation
import Pseudocode.Proofs.Partition
import Pseudocode.Proofs.Position

/-!
# Rendering

Lexemes written down one behind the other, with blanks and comments between them, scan to
themselves (`scan_rendered`).  What is between them is free (`Trivia`), but for one thing:
a blank stands behind each lexeme, so that nothing continues it (`Separator`).

The proof follows the text.  A blank ends every lexeme (`Lexeme.endsBefore_blank`), so a
lexeme with its separator is cut as one piece; trivia is cut into pieces that are neither
tokens nor diagnostics, hence passing it only moves the cursor (`Trivia.tokensOf_pieces`).
What lexemes and comments hold inside does not matter anywhere.
-/

namespace Pseudocode

/-! ## Trivia and separators -/

/-- A text of blanks and of comments that have their line ends. -/
inductive Trivia : Text → Prop where
  | nil : Trivia []
  | blank {c : Char} {s : Text} (is_blank : isBlank c) (behind : Trivia s) : Trivia (c :: s)
  | comment {body s : Text} (inside_line : Text.lineEnd ∉ body) (behind : Trivia s) :
      Trivia ('/' :: '/' :: (body ++ Text.lineEnd :: s))

/-- A separator is trivia that has a blank in front. -/
structure Separator (s : Text) : Prop where
  trivia : Trivia s
  front : ∃ c rest, s = c :: rest ∧ isBlank c

/-- A well-formed lexeme with a separator behind it. -/
structure Spaced where
  lexeme : Lexeme
  separator : Text
  wellFormed : lexeme.WellFormed
  separates : Separator separator

/-- The source text of the lexeme and its separator. -/
def Spaced.text (w : Spaced) : Text :=
  w.lexeme.text ++ w.separator

/-- Lexemes with their separators, written down behind some trivia. -/
def rendered (lead : Text) (ws : List Spaced) : Text :=
  lead ++ ws.flatMap Spaced.text

/-! ## Trivia is passed over -/

namespace Trivia

/-- Trivia is cut off from what follows it. -/
theorem pieces_append {s : Text} (h : Trivia s) (rest : Text) :
    pieces (s ++ rest) = pieces s ++ pieces rest := by
  induction h with
  | nil => rw [pieces_nil]; rfl
  | @blank c s is_blank _ ih =>
      rw [List.cons_append, pieces_blank _ is_blank, pieces_blank _ is_blank, ih]
      rfl
  | @comment body s inside_line _ ih =>
      -- the line end of the comment is a piece of its own, so the comment stops at it
      have whole : '/' :: '/' :: (body ++ Text.lineEnd :: s) ++ rest =
          '/' :: '/' :: (body ++ Text.lineEnd :: (s ++ rest)) := by simp
      rw [whole, pieces_comment_lineEnd inside_line, pieces_comment_lineEnd inside_line, ih]
      rfl

theorem silent {s : Text} (h : Trivia s) :
    ∀ p ∈ pieces s, p.lexeme? = none ∧ p.fault? = none := by
  induction h with
  | nil =>
      rw [pieces_nil]
      exact nofun
  | blank is_blank _ ih =>
      rw [pieces_blank _ is_blank]
      exact List.forall_mem_cons.mpr ⟨⟨rfl, rfl⟩, ih⟩
  | comment inside_line _ ih =>
      rw [pieces_comment_lineEnd inside_line]
      exact List.forall_mem_cons.mpr ⟨⟨rfl, rfl⟩, List.forall_mem_cons.mpr ⟨⟨rfl, rfl⟩, ih⟩⟩

/-- Passing trivia moves the cursor and gives no tokens. -/
theorem tokensOf_pieces {s : Text} (h : Trivia s) (cur : Cursor) (rest : Text) :
    tokensOf cur (pieces (s ++ rest)) = tokensOf (cur.advance s) (pieces rest) := by
  have nothing : tokensOf cur (pieces s) = [] := tokensOf_eq_nil fun p mem => (h.silent p mem).1
  rw [h.pieces_append, tokensOf_append, flatMap_text_pieces, nothing, List.nil_append]

end Trivia

/-! ## Spaced lexemes come out again -/

namespace Spaced

theorem pieces_text_append (w : Spaced) (rest : Text) :
    pieces (w.text ++ rest) = .lexeme w.lexeme :: pieces (w.separator ++ rest) := by
  obtain ⟨c, s, front, blank⟩ := w.separates.front
  have ends : w.lexeme.EndsBefore (w.separator ++ rest) := by
    rw [front]
    exact w.lexeme.endsBefore_blank _ blank
  rw [text, List.append_assoc]
  exact pieces_lexeme w.wellFormed ends

/-- The tokens that the lexemes should give, set down from the cursor on. -/
def tokensFrom (cur : Cursor) : List Spaced → List Token
  | [] => []
  | w :: ws => w.lexeme.token (cur.advance w.lexeme.text).line :: tokensFrom (cur.advance w.text) ws

theorem tokensOf_pieces (cur : Cursor) (ws : List Spaced) :
    tokensOf cur (pieces (ws.flatMap text)) = tokensFrom cur ws := by
  induction ws generalizing cur with
  | nil => rw [List.flatMap_nil, pieces_nil]; rfl
  | cons w ws ih =>
      rw [List.flatMap_cons, pieces_text_append]
      -- the lexeme gives its token, and its separator only moves the cursor on
      show w.lexeme.token _ :: tokensOf _ _ = w.lexeme.token _ :: tokensFrom _ ws
      rw [w.separates.trivia.tokensOf_pieces, ih, text, Cursor.advance_append]
      rfl

theorem faultless (ws : List Spaced) : ∀ p ∈ pieces (ws.flatMap text), p.fault? = none := by
  induction ws with
  | nil =>
      rw [List.flatMap_nil, pieces_nil]
      exact nofun
  | cons w ws ih =>
      rw [List.flatMap_cons, pieces_text_append, w.separates.trivia.pieces_append]
      refine List.forall_mem_cons.mpr ⟨rfl, List.forall_mem_append.mpr ⟨?_, ih⟩⟩
      exact fun p mem => (w.separates.trivia.silent p mem).2

theorem length_tokensFrom (cur : Cursor) (ws : List Spaced) :
    (tokensFrom cur ws).length = ws.length := by
  induction ws generalizing cur with
  | nil => rfl
  | cons w ws ih => exact congrArg (· + 1) (ih _)

/-- The token at a place is that of the lexeme at this place, on the line that the lexeme
    ends on. -/
theorem getElem?_tokensFrom (cur : Cursor) (before : List Spaced) (w : Spaced)
    (after : List Spaced) : (tokensFrom cur (before ++ w :: after))[before.length]? =
      some (w.lexeme.token (cur.advance (before.flatMap text ++ w.lexeme.text)).line) := by
  induction before generalizing cur with
  | nil => rfl
  | cons v before ih =>
      rw [List.flatMap_cons, List.append_assoc, Cursor.advance_append]
      exact ih (cur.advance v.text)

end Spaced

/-- **Rendered lexemes scan to themselves.**  Write well-formed lexemes down behind some
    trivia, each with a separator behind it.  Then a scan
    1. reports nothing;
    2. gives as many tokens as there are lexemes, and the end token;
    3. gives at each place the text of the lexeme at this place, the kind and the literal
       that it denotes, and as line one more than the number of line ends up to its end. -/
theorem scan_rendered (lead : Text) (trivia : Trivia lead) (ws : List Spaced) (file : Text) :
    (Source.ofText (rendered lead ws) file).scan.diagnostics = [] ∧
    ∃ (found : List Token) (line : Int),
      (Source.ofText (rendered lead ws) file).scan.tokens = found ++ [.eof line] ∧
      found.length = ws.length ∧
      ∀ before w after, ws = before ++ w :: after → ∃ t : Token, found[before.length]? = some t ∧
        t.lexeme = w.lexeme.text ∧ w.lexeme.Denotes t.kind t.literal ∧
        t.line = 1 + (rendered lead before ++ w.lexeme.text).count Text.lineEnd := by
  refine ⟨?_, Spaced.tokensFrom ((Cursor.atLine 1).advance lead) ws,
    (Source.ofText (rendered lead ws) file).stop.line, ?_, Spaced.length_tokensFrom _ _, ?_⟩
  · show diagnosticsOf file (.atLine 1) (pieces (lead ++ ws.flatMap Spaced.text)) = []
    refine diagnosticsOf_eq_nil ?_
    rw [trivia.pieces_append]
    refine List.forall_mem_append.mpr ⟨?_, Spaced.faultless ws⟩
    exact fun p mem => (trivia.silent p mem).2
  · show tokensOf (.atLine 1) (pieces (lead ++ ws.flatMap Spaced.text)) ++ [.eof _] = _
    rw [trivia.tokensOf_pieces, Spaced.tokensOf_pieces]
  · rintro before w after rfl
    refine ⟨_, Spaced.getElem?_tokensFrom _ before w after, rfl, Lexeme.denotes w.wellFormed, ?_⟩
    show (Cursor.advance _ _).line = _
    rw [← Cursor.advance_append, Cursor.advance_atLine, rendered, List.append_assoc]

/-- A comment with a quote in it, then a string with slashes and a line end in it, then a
    slash. -/
theorem scan_rendered_string_slash :
    Trivia "// \"\n".toList ∧
    (Source.ofText "// \"\n\"a//\nb\" / ".toList "p".toList).scan.diagnostics = [] ∧
    (Source.ofText "// \"\n\"a//\nb\" / ".toList "p".toList).scan.tokens =
      [⟨.string, "\"a//\nb\"".toList, some (.text "a//\nb".toList), 3⟩,
        ⟨.operator .slash, ['/'], none, 3⟩, .eof 3] := by
  have lead : Trivia "// \"\n".toList := @Trivia.comment " \"".toList [] (by decide) .nil
  have space : Separator [' '] := ⟨.blank (by decide) .nil, ' ', [], rfl, by decide⟩
  have string : (Lexeme.string "a//\nb".toList).WellFormed := by
    show _ ∉ _
    decide
  have scanned := scan_rendered _ lead
    [⟨.string "a//\nb".toList, [' '], string, space⟩, ⟨.operator .slash, [' '], trivial, space⟩]
    "p".toList
  exact ⟨lead, scanned.1, by decide +kernel⟩

end Pseudocode

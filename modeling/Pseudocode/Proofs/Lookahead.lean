import Pseudocode.Proofs.LineStamp
import Pseudocode.Proofs.Modes

/-!
# Lookahead

A scan looks one character ahead, and two behind a number.  So text that is appended to a
source does not change what was found well before its end (`scan_settled`): the tokens up to
the first one that has too little text behind it, and all unexpected characters.

The reason is one law on fitting: a piece that fits before a text fits before any longer one,
unless the text is empty, or is a point behind a number (`Piece.Fits.append`).  Where a stray
character stands behind a piece the text is neither, which is why no margin is needed for
unexpected characters (`diagnosticsOf_eq_nil_of_short`).
-/

namespace Pseudocode

/-! ## Fitting before a longer text -/

theorem RunEnds.append_right {p : Char → Bool} {rest : Text} (h : RunEnds p rest)
    (nonempty : rest ≠ []) (more : Text) : RunEnds p (rest ++ more) := by
  intro c mem
  rw [List.head?_append_of_ne_nil rest nonempty] at mem
  exact h c mem

theorem Lexeme.EndsBefore.append {l : Lexeme} {rest : Text} (h : l.EndsBefore rest)
    (nonempty : rest ≠ []) (noPoint : l.kind = .number → rest ≠ ['.']) (more : Text) :
    l.EndsBefore (rest ++ more) := by
  have head := @List.head?_append_of_ne_nil _ rest more nonempty
  cases l with
  | operator o =>
      constructor
      · intro lengthens
        rw [head]
        exact h.1 lengthens
      · intro slash
        rw [head]
        exact h.2 slash
  | word letters => exact RunEnds.append_right h nonempty more
  | number whole fraction =>
      refine ⟨h.1.append_right nonempty more, ?_⟩
      intro none d tail front
      -- a point alone may get a digit behind it, so this is what `noPoint` is for
      match rest with
      | [] => exact absurd rfl nonempty
      | [c] =>
          obtain ⟨rfl, -⟩ := List.cons.inj front
          exact absurd rfl (noPoint rfl)
      | c :: e :: rest =>
          obtain ⟨point, front⟩ := List.cons.inj front
          obtain ⟨rfl, -⟩ := List.cons.inj front
          exact h.2 none e rest (point ▸ rfl)
  | string body => trivial

/-- **A piece that fits before a text fits before a longer one**, unless the text is empty, or
    is a point behind a number. -/
theorem Piece.Fits.append {p : Piece} {rest : Text} (fits : p.Fits rest) (nonempty : rest ≠ [])
    (noPoint : ∀ l ∈ p.lexeme?, l.kind = .number → rest ≠ ['.']) (more : Text) :
    p.Fits (rest ++ more) := by
  refine ⟨?_, fun l mem => (fits.2 l mem).append nonempty (noPoint l mem) more⟩
  cases p with
  | comment body => exact ⟨fits.1.1, fits.1.2.append_right nonempty more⟩
  | openString body => exact absurd fits.1.2 nonempty
  | _ => exact fits.1

/-! ## Settled tokens -/

/-- How many characters have to stand behind a token of the kind so that no later text can
    change it. -/
def Kind.margin : Kind → Nat
  | number => 2
  | _ => 1

/-- The tokens up to the first one whose margin, counted from where its extent stops, goes
    beyond `length`. -/
def settledBefore (length : Nat) (tokens : List Token) (extents : List Extent) : List Token :=
  ((tokens.zip extents).takeWhile fun (t, x) => x.stop + t.kind.margin ≤ length).map Prod.fst

/-- The tokens of the source that no text appended to it can change. -/
def Source.settled (src : Source) : List Token :=
  settledBefore src.text.length src.scan.tokens (extentsFrom 0 (pieces src.text))

section
variable {length : Nat} {t : Token} {ts : List Token} {x : Extent} {xs : List Extent}

theorem settledBefore_cons_of_le (settled : x.stop + t.kind.margin ≤ length) :
    settledBefore length (t :: ts) (x :: xs) = t :: settledBefore length ts xs := by
  simp [settledBefore, settled]

theorem settledBefore_cons_of_not_le (open_end : ¬ x.stop + t.kind.margin ≤ length) :
    settledBefore length (t :: ts) (x :: xs) = [] := by
  simp [settledBefore, open_end]

end

/-- With its margin behind it a lexeme fits before any longer text. -/
theorem Piece.Fits.append_of_margin {l : Lexeme} {rest : Text} (fits : (lexeme l).Fits rest)
    (margin : l.kind.margin ≤ rest.length) (more : Text) : (lexeme l).Fits (rest ++ more) := by
  have one : 1 ≤ l.kind.margin := by
    unfold Kind.margin
    split <;> decide
  refine fits.append ?_ ?_ more
  · rintro rfl
    exact absurd (Nat.le_trans one margin) (by decide)
  · intro l' mem number
    obtain rfl := Option.some.inj mem
    rintro rfl
    rw [number] at margin
    exact absurd margin (by decide)

/-- **Settled tokens stay in front**, whatever text is appended. -/
theorem settledBefore_prefix {ps : List Piece} (fit : FitBefore ps []) {p length : Nat}
    (stop : p + (ps.flatMap Piece.text).length = length) (cur : Cursor) (more : Text) :
    settledBefore length (tokensOf cur ps) (extentsFrom p ps) <+:
      tokensOf cur (pieces (ps.flatMap Piece.text ++ more)) := by
  induction ps generalizing p cur with
  | nil => exact List.nil_prefix
  | cons q qs ih =>
      obtain ⟨fits, behind⟩ := fit
      rw [List.append_nil] at fits
      rw [List.flatMap_cons, List.length_append] at stop
      have later := ih behind (p := p + q.text.length) (by omega) (cur.advance q.text)
      rw [List.flatMap_cons, List.append_assoc]
      cases q with
      | lexeme l =>
          show settledBefore length (l.token (cur.advance l.text).line :: tokensOf _ qs)
            (⟨p, p + l.text.length⟩ :: extentsFrom _ qs) <+: _
          by_cases settled : (⟨p, p + l.text.length⟩ : Extent).stop +
              (l.token (cur.advance l.text).line).kind.margin ≤ length
          · have margin : l.kind.margin ≤ (qs.flatMap Piece.text).length := by
              have inside : p + l.text.length + l.kind.margin ≤ length := settled
              have whole : p + (l.text.length + (qs.flatMap Piece.text).length) = length := stop
              omega
            rw [settledBefore_cons_of_le settled,
              pieces_append_of_fits (fits.append_of_margin margin more)]
            exact (List.prefix_cons_inj _).mpr later
          · rw [settledBefore_cons_of_not_le settled]
            exact List.nil_prefix
      | blank c =>
          show _ <+: tokensOf cur (pieces (c :: _))
          rw [pieces_blank _ fits.1]
          exact later
      | stray c =>
          show _ <+: tokensOf cur (pieces (c :: _))
          rw [pieces_stray _ fits.1]
          exact later
      | comment body =>
          by_cases last : qs.flatMap Piece.text = []
          · obtain rfl := behind.eq_nil last
            exact List.nil_prefix
          · rw [pieces_append_of_fits (fits.append last nofun more)]
            exact later
      | openString body =>
          obtain rfl := behind.eq_nil fits.1.2
          exact List.nil_prefix

/-! ## Unexpected characters -/

/-- What a diagnostic says but for the text of its line: the fault and where it is. -/
def Diagnostic.sighting (d : Diagnostic) : Fault × Option Location :=
  (d.fault, d.location)

/-- In a text so short that a piece in front of it may grow there is no fault. -/
theorem diagnosticsOf_eq_nil_of_short {ps : List Piece} (fit : FitBefore ps [])
    (short : ps.flatMap Piece.text = [] ∨ ps.flatMap Piece.text = ['.']) (file : Text)
    (cur : Cursor) : diagnosticsOf file cur ps = [] := by
  rcases short with nothing | point
  · obtain rfl := fit.eq_nil nothing
    rfl
  · have dot : FitBefore [.lexeme (.operator .dot)] [] :=
      ⟨Piece.fits_lexeme.mpr ⟨trivial, nofun, nofun⟩, trivial⟩
    have cut : pieces ['.'] = ps := pieces_eq_iff.mpr ⟨point, fit⟩
    have alone : pieces ['.'] = [.lexeme (.operator .dot)] := pieces_eq_iff.mpr ⟨rfl, dot⟩
    obtain rfl := cut.symm.trans alone
    rfl

/-- **Unexpected characters stay in front**, whatever text is appended. -/
theorem sightings_prefix {ps : List Piece} (fit : FitBefore ps []) (file : Text) (cur : Cursor)
    (more : Text) :
    ((diagnosticsOf file cur ps).filter (·.fault.character?.isSome)).map Diagnostic.sighting <+:
      (diagnosticsOf file cur (pieces (ps.flatMap Piece.text ++ more))).map
        Diagnostic.sighting := by
  induction ps generalizing cur with
  | nil => exact List.nil_prefix
  | cons q qs ih =>
      obtain ⟨fits, behind⟩ := fit
      rw [List.append_nil] at fits
      have later := ih behind (cur.advance q.text)
      rw [List.flatMap_cons, List.append_assoc]
      cases q with
      | stray c =>
          show _ <+: (diagnosticsOf file cur (pieces (c :: _))).map _
          rw [pieces_stray _ fits.1]
          exact (List.prefix_cons_inj _).mpr later
      | openString body =>
          obtain rfl := behind.eq_nil fits.1.2
          exact List.nil_prefix
      | _ =>
          by_cases short : qs.flatMap Piece.text = [] ∨ qs.flatMap Piece.text = ['.']
          · have silent := diagnosticsOf_eq_nil_of_short behind short file
            rw [diagnosticsOf_cons, silent]
            exact List.nil_prefix
          · obtain ⟨nonempty, noPoint⟩ := not_or.mp short
            rw [pieces_append_of_fits (fits.append nonempty (fun _ _ _ => noPoint) more)]
            exact later

/-- **Appended text does not disturb what is settled.**  Append any text to a source.
    1. The leading tokens of the source that end at least one character before its end, or
       two characters if they are numbers, are the first tokens of the longer source.
    2. The unexpected characters that are reported in the source are what is reported first
       in the longer source, in the same order and at the same locations. -/
theorem scan_settled (a b file : Text) (n : Int) :
    Source.settled ⟨a, file, n⟩ <+: (Source.scan ⟨a ++ b, file, n⟩).tokens ∧
    ((Source.scan ⟨a, file, n⟩).diagnostics.filter (·.fault.character?.isSome)).map
        Diagnostic.sighting <+:
      (Source.scan ⟨a ++ b, file, n⟩).diagnostics.map Diagnostic.sighting := by
  have fit := fitBefore_pieces a
  have whole := flatMap_text_pieces a
  constructor
  · have found := settledBefore_prefix fit (Nat.zero_add _) (.atLine n) b
    rw [whole] at found
    have step := Source.forall₂_stamped ⟨a, file, n⟩
    -- the end token has no extent, so it is not among the pairs
    have pairs : (Source.scan ⟨a, file, n⟩).tokens.zip (extentsFrom 0 (pieces a)) =
        (tokensOf (.atLine n) (pieces a)).zip (extentsFrom 0 (pieces a)) := by
      show (tokensOf _ (pieces a) ++ [_]).zip _ = _
      rw [← List.append_nil (extentsFrom 0 (pieces a)), List.zip_append step.length_eq]
      simp
    rw [Source.settled, settledBefore, pairs]
    exact found.trans (List.prefix_append _ _)
  · have found := sightings_prefix fit file (.atLine n) b
    rwa [whole] at found

/-- A number with a point behind it is not settled, and with a blank behind the point it is. -/
example : Source.settled ⟨"# 12.".toList, [], 1⟩ = [] ∧
    (Source.settled ⟨"# 12. ".toList, [], 1⟩).map Token.lexeme = [['1', '2'], ['.']] := by
  decide +kernel

end Pseudocode

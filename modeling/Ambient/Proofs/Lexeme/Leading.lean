import Ambient.Proofs.Lexeme.Gaps

namespace Ambient

namespace Trivia

/-- The comments among some trivia, in order, each with the trivia in front of it; those in `front`
stand in front of all. -/
def commentsFrom (front : List Trivia) : List Trivia → List (List Trivia × Trivia)
  | [] => []
  | t :: ts =>
    if t.isComment then (front, t) :: commentsFrom (front ++ [t]) ts
    else commentsFrom (front ++ [t]) ts

/-- The last comment of which `leads` holds, given the trivia in front of it. The trivia start at
`start`. -/
def lastComment (start : Nat) (leads : List Trivia → Bool) (pieces : List Trivia) : Option Comment :=
  ((commentsFrom [] pieces).filter fun c => leads c.1).getLast?.map fun c =>
    ⟨start + byteLength (c.1.flatMap chars), String.ofList c.2.chars⟩

variable {front g behind pieces : List Trivia} {t : Trivia} {rest : List Char}

theorem commentsFrom_concat (front pieces : List Trivia) (t : Trivia) :
    commentsFrom front (pieces ++ [t]) =
      commentsFrom front pieces ++ if t.isComment then [(front ++ pieces, t)] else [] := by
  induction pieces generalizing front with
  | nil => simp [commentsFrom]
  | cons k pieces ih =>
    simp only [List.cons_append, commentsFrom, ih, List.append_assoc, List.nil_append]
    split
    · rw [List.cons_append]
    · rfl

theorem lastComment_concat (start : Nat) (leads : List Trivia → Bool) (pieces : List Trivia)
    (t : Trivia) : lastComment start leads (pieces ++ [t]) =
      if leads pieces && t.isComment then
        some ⟨start + byteLength (pieces.flatMap chars), String.ofList t.chars⟩
      else lastComment start leads pieces := by
  rw [lastComment, commentsFrom_concat, List.filter_append]
  cases comment : t.isComment with
  | false => simp [lastComment]
  | true =>
    cases leading : leads pieces with
    | false => simp [lastComment, leading]
    | true => simp [leading]

/-- What a search has found behind some trivia. -/
theorem search_foldl (start : Nat) (pieces : List Trivia) :
    pieces.foldl Search.pass ⟨start, start = 0, none⟩ =
      ⟨start + byteLength (pieces.flatMap chars), start = 0 || pieces.any isLineBreak,
        lastComment start (fun front => start = 0 || front.any isLineBreak) pieces⟩ := by
  induction pieces using List.reverseRecOn with
  | nil => simp [lastComment, commentsFrom, byteLength]
  | append_singleton pieces t ih =>
    rw [List.foldl_append, ih, lastComment_concat]
    simp [Search.pass, byteLength_append, Nat.add_assoc, Bool.or_assoc]

theorem mem_commentsFrom {c : List Trivia × Trivia} (h : c ∈ commentsFrom front pieces) :
    ∃ g behind, pieces = g ++ c.2 :: behind ∧ c.1 = front ++ g ∧ c.2.isComment = true := by
  induction pieces generalizing front with
  | nil => cases h
  | cons k pieces ih =>
    have step (later : c ∈ commentsFrom (front ++ [k]) pieces) :
        ∃ g behind, k :: pieces = g ++ c.2 :: behind ∧ c.1 = front ++ g ∧ c.2.isComment = true := by
      obtain ⟨g, behind, split, eq, comment⟩ := ih later
      refine ⟨k :: g, behind, by rw [split, List.cons_append], ?_, comment⟩
      rw [eq, List.append_assoc, List.singleton_append]
    rw [commentsFrom] at h
    split at h
    · rename_i comment
      obtain rfl | later := List.mem_cons.mp h
      · exact ⟨[], pieces, rfl, (List.append_nil _).symm, comment⟩
      · exact step later
    · exact step h

/-- Only what stands in front of comments matters. -/
theorem lastComment_congr {start : Nat} {leads leads' : List Trivia → Bool}
    (same : ∀ g t behind, pieces = g ++ t :: behind → t.isComment = true → leads g = leads' g) :
    lastComment start leads pieces = lastComment start leads' pieces := by
  have filters : (commentsFrom [] pieces).filter (fun c => leads c.1) =
      (commentsFrom [] pieces).filter fun c => leads' c.1 := by
    apply List.filter_congr
    intro c mem
    obtain ⟨g, behind, split, eq, comment⟩ := mem_commentsFrom mem
    rw [eq]
    exact same g c.2 behind split comment
  rw [lastComment, filters, lastComment]

theorem first_of_comment (comment : t.isComment = true) : t.chars.head? = some '/' := by
  cases t with
  | blank c | lineBreak c => cases comment
  | lineComment body | blockComment body => rfl

/-- What ends a line comment is a line break. -/
theorem isLineBreak_of_first (complete : t.Complete rest) {c : Char} (first : t.chars.head? = some c)
    (ends : inLineComment c = false) : t.isLineBreak = true := by
  have breaks := isLineBreak_of_not_inLineComment ends
  cases t with
  | blank d =>
    have blank : isBlank d = true := complete
    obtain rfl : d = c := Option.some.inj first
    rw [isLineBreak_of_isBlank blank] at breaks
    cases breaks
  | lineBreak d => rfl
  | lineComment body | blockComment body =>
    obtain rfl : '/' = c := Option.some.inj first
    cases ends

/-- Behind a line comment there is a line break before the next comment. -/
theorem any_isLineBreak_of_lineComment {body : List Char}
    (lead : Lead (.lineComment body :: (g ++ t :: behind)) rest) (comment : t.isComment = true) :
    g.any isLineBreak = true := by
  cases lead with
  | cons complete others =>
    obtain ⟨-, stop⟩ := complete
    cases g with
    | nil =>
      have first := first_of_comment comment
      have slash : inLineComment '/' = false := by
        apply stop
        simp [List.flatMap_cons, first]
      cases slash
    | cons k g =>
      cases others with
      | cons complete _ =>
        obtain ⟨c, cs, eq⟩ : ∃ c cs, k.chars = c :: cs := by
          cases k with
          | blank c | lineBreak c | lineComment c | blockComment c => exact ⟨_, _, rfl⟩
        have ends : inLineComment c = false := by
          apply stop
          simp [eq]
        simp [isLineBreak_of_first complete (by rw [eq]; rfl) ends]

/-- Where no block comment goes over the end of a line, the line breaks in front of a comment are
outside of comments. -/
theorem any_isLineBreak (lead : Lead (g ++ t :: behind) rest) (comment : t.isComment = true)
    (plain : ∀ body, .blockComment body ∈ g → ∀ c ∈ body, Ambient.isLineBreak c = false) :
    (g.flatMap chars).any Ambient.isLineBreak = g.any isLineBreak := by
  induction g with
  | nil => rfl
  | cons k g ih =>
    have later := fun body mem => plain body (List.mem_cons_of_mem _ mem)
    have whole := lead
    cases lead with
    | cons complete others =>
      rw [List.flatMap_cons, List.any_append, List.any_cons, ih others later]
      cases k with
      | blank c =>
        have blank : isBlank c = true := complete
        simp [chars, isLineBreak, isLineBreak_of_isBlank blank]
      | lineBreak c =>
        have breaks : Ambient.isLineBreak c = true := complete
        simp [chars, isLineBreak, breaks]
      | lineComment body => simp [any_isLineBreak_of_lineComment whole comment]
      | blockComment body =>
        have none : body.any Ambient.isLineBreak = false := by
          rw [List.any_eq_false]
          intro c mem
          simp [plain body List.mem_cons_self c mem]
        have slash : Ambient.isLineBreak '/' = false := rfl
        have star : Ambient.isLineBreak '*' = false := rfl
        simp [chars, isLineBreak, none, slash, star]

end Trivia

open Trivia

/-- The comment that leads a token is the last one of its gap that has a line break outside of comments
in front of it, or any in front of the first token. Where no block comment of the gap goes over the end
of a line, it is the last one that does not start on the line on which the token before ends. -/
theorem comment_of_lexemes {text : String} {before after : List Lexeme} {t : Lexeme}
    (h : lexemes text = before ++ t :: after) (closed : ¬ t.Unclosed) :
    ∃ pieces, (∀ others, IsGap text before t others ↔ others = pieces) ∧
      t.comment = lastComment (stopOf before)
        (fun front => stopOf before = 0 || front.any Trivia.isLineBreak) pieces ∧
      ((∀ body, .blockComment body ∈ pieces → ∀ c ∈ body, isLineBreak c = false) →
        t.comment = lastComment (stopOf before)
          (fun front => stopOf before = 0 || (front.flatMap chars).any isLineBreak) pieces) := by
  obtain ⟨pieces, decides⟩ := exists_decides h closed
  have found : t.comment = lastComment (stopOf before)
      (fun front => stopOf before = 0 || front.any Trivia.isLineBreak) pieces := by
    rw [decides.comment, leadingComment, search_foldl]
  refine ⟨pieces, decides.isGap_iff, found, ?_⟩
  intro plain
  rw [found]
  apply lastComment_congr
  intro g k behind split comment
  have lead := decides.isGap.lead
  rw [split] at lead
  rw [any_isLineBreak lead comment]
  intro body mem
  apply plain body
  rw [split]
  exact List.mem_append_left _ mem

/-- Of three comments the first one trails the token before, and the last one leads. -/
theorem comment_of_lexemes_trailing :
    let text := "x // one\n/* two */ /* three */ y"
    let x : Lexeme := ⟨.identifier, 0, "x", false, none, none⟩
    let y : Lexeme := ⟨.identifier, 31, "y", true, some ⟨19, "/* three */"⟩, none⟩
    ∃ after, lexemes text = [x] ++ y :: after ∧ ¬ y.Unclosed ∧ ∃ pieces,
      (∀ others, IsGap text [x] y others ↔ others = pieces) ∧
        lastComment 1 (fun front => stopOf [x] = 0 || front.any Trivia.isLineBreak) pieces =
          some ⟨19, "/* three */"⟩ := by
  intro text x y
  have scanned : lexemes text = [x] ++ y :: [⟨.endOfFileToken, 32, "", false, none, none⟩] := by
    decide +kernel
  have closed : ¬ y.Unclosed := by
    intro unclosed
    cases unclosed.kind
  obtain ⟨pieces, only, found, -⟩ := comment_of_lexemes scanned closed
  exact ⟨_, scanned, closed, pieces, only, found.symm⟩

/-- Behind a block comment that goes over the end of a line, a comment starts on another line than the
token before, but leads no token. -/
theorem not_comment_eq_lastComment : ¬ ∀ (text : String) (before after : List Lexeme) (t : Lexeme)
    (pieces : List Trivia), lexemes text = before ++ t :: after → ¬ t.Unclosed →
      IsGap text before t pieces → t.comment = lastComment (stopOf before)
        (fun front => stopOf before = 0 || (front.flatMap chars).any isLineBreak) pieces := by
  intro same
  let text := "x /* a\n*/ /* b */ y"
  let x : Lexeme := ⟨.identifier, 0, "x", false, none, none⟩
  let y : Lexeme := ⟨.identifier, 18, "y", true, none, none⟩
  let pieces := [Trivia.blank ' ', .blockComment [' ', 'a', '\n'], .blank ' ',
    .blockComment [' ', 'b', ' '], .blank ' ']
  have scanned : lexemes text = [x] ++ y :: [⟨.endOfFileToken, 19, "", false, none, none⟩] := by
    decide +kernel
  have closed : ¬ y.Unclosed := by
    intro unclosed
    cases unclosed.kind
  have is_gap : IsGap text [x] y pieces := by
    constructor
    · decide +kernel
    · have blank : isBlank ' ' = true := rfl
      have first : ¬ ['*', '/'] <:+: [' ', 'a', '\n'] ++ ['*'] := by decide
      have second : ¬ ['*', '/'] <:+: [' ', 'b', ' '] ++ ['*'] := by decide
      exact .cons blank (.cons first (.cons blank (.cons second (.cons blank .nil))))
  have leads : y.comment = some ⟨10, "/* b */"⟩ := by
    rw [same text [x] _ y pieces scanned closed is_gap]
    decide +kernel
  cases leads

end Ambient

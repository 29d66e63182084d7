import Ambient.Proofs.Lexeme.Session

namespace Ambient

theorem isLineBreak_of_isBlank {c : Char} (h : isBlank c = true) : isLineBreak c = false := by
  by_contra breaks
  simp only [isLineBreak, Bool.not_eq_false, Bool.or_eq_true, decide_eq_true_eq] at breaks
  rcases breaks with ((rfl | rfl) | rfl) | rfl
  all_goals cases h

namespace Trivia

variable {cs rest : List Char} {t : Trivia} {pieces : List Trivia}

/-- A block comment ends at its first end. -/
theorem bodyLength?_of_first {body : List Char} (first : ¬ ['*', '/'] <:+: body ++ ['*']) (n : Nat)
    (rest : List Char) : bodyLength? n (body ++ '*' :: '/' :: rest) = some (n + body.length) := by
  induction body generalizing n with
  | nil => rfl
  | cons c body ih =>
    have later : ¬ ['*', '/'] <:+: body ++ ['*'] := by
      intro found
      exact first (found.trans (List.suffix_cons c _).isInfix)
    have other : ∀ ds, c = '*' → body ++ '*' :: '/' :: rest = '/' :: ds → False := by
      intro ds star slash
      cases body with
      | nil => simp at slash
      | cons d body =>
        simp only [List.cons_append, List.cons.injEq] at slash
        apply first
        rw [star, slash.1]
        exact (List.prefix_append ['*', '/'] _).isInfix
    rw [List.cons_append, bodyLength?_cons other, ih later, List.length_cons]
    congr 1
    omega

/-- A piece of trivia is what a text starts with in which it can stand in front of the rest. -/
theorem front_chars (complete : t.Complete rest) : front (t.chars ++ rest) = .piece t rest := by
  cases t with
  | blank c =>
    have blank : isBlank c = true := complete
    exact front_blank (by simp [isLineBreak_of_isBlank blank]) blank rest
  | lineBreak c => exact front_lineBreak complete rest
  | lineComment body =>
    obtain ⟨inside, stop⟩ := complete
    have line : (body ++ rest).takeWhile inLineComment = body ∧
        (body ++ rest).dropWhile inLineComment = rest := by
      rw [List.takeWhile_append_of_pos inside, List.dropWhile_append_of_pos inside]
      cases rest with
      | nil => simp
      | cons c rest => simp [stop c rfl]
    simp [chars, front, line]
  | blockComment body =>
    have found := bodyLength?_of_first complete 0 rest
    simp only [chars, List.cons_append, List.append_assoc, List.nil_append, front, found,
      Nat.zero_add, List.take_left, ← List.drop_drop, List.drop_left]
    rfl

theorem skipFrom_of_lead (lead : Lead pieces rest) (token : front rest = .token)
    (skipped : List Trivia) : skipFrom skipped (pieces.flatMap chars ++ rest) =
      ⟨skipped.reverse ++ pieces, rest, true⟩ := by
  induction lead generalizing skipped with
  | nil => simp [skipFrom_of_token token]
  | cons complete _ ih =>
    rw [List.flatMap_cons, List.append_assoc, skipFrom_piece _ (front_chars complete), ih token]
    simp

/-- Only one row of trivia can be read in front of a token. -/
theorem skip_of_lead (lead : Lead pieces rest) (token : front rest = .token) :
    skip (pieces.flatMap chars ++ rest) = ⟨pieces, rest, true⟩ :=
  skipFrom_of_lead lead token []

/-- What counts as a line break in a piece of trivia: any outside of comments, and a line feed or a
carriage return in a comment. -/
def CountsAsBreak (t : Trivia) (c : Char) : Prop :=
  Ambient.isLineBreak c = true ∧ (t.isComment = true → c = '\n' ∨ c = '\r')

theorem not_inLineComment_iff {c : Char} : inLineComment c = false ↔ c = '\n' ∨ c = '\r' := by
  simp only [inLineComment, Bool.and_eq_false_iff, bne_eq_false_iff_eq]

theorem isLineBreak_of_not_inLineComment {c : Char} (h : inLineComment c = false) :
    Ambient.isLineBreak c = true := by
  obtain rfl | rfl := not_inLineComment_iff.mp h
  all_goals rfl

theorem countsAsBreak_of_comment {c : Char} (comment : t.isComment = true) :
    t.CountsAsBreak c ↔ inLineComment c = false := by
  constructor
  · intro counts
    exact not_inLineComment_iff.mpr (counts.2 comment)
  · intro ends
    exact ⟨isLineBreak_of_not_inLineComment ends, fun _ => not_inLineComment_iff.mp ends⟩

/-- A piece of trivia puts the next token on a new line if there is a line break in it that counts. -/
theorem breaksLine_iff (complete : t.Complete rest) :
    t.breaksLine = true ↔ ∃ c ∈ t.chars, t.CountsAsBreak c := by
  cases t with
  | blank c =>
    have blank : isBlank c = true := complete
    simp [breaksLine, chars, CountsAsBreak, isLineBreak_of_isBlank blank]
  | lineBreak c =>
    have breaks : Ambient.isLineBreak c = true := complete
    simp [breaksLine, chars, CountsAsBreak, isComment, breaks]
  | lineComment body =>
    have slash : inLineComment '/' = true := rfl
    simp only [breaksLine, chars, countsAsBreak_of_comment (t := .lineComment body) rfl,
      List.mem_cons, exists_eq_or_imp, slash, Bool.true_eq_false, false_or, Bool.false_eq_true,
      false_iff, not_exists, not_and, Bool.not_eq_false]
    exact complete.1
  | blockComment body =>
    have slash : inLineComment '/' = true := rfl
    have star : inLineComment '*' = true := rfl
    simp [breaksLine, chars, countsAsBreak_of_comment (t := .blockComment body) rfl, or_and_right,
      exists_or, slash, star]

theorem Lead.complete (lead : Lead pieces rest) (mem : t ∈ pieces) : ∃ ds, t.Complete ds := by
  induction lead with
  | nil => cases mem
  | cons complete _ ih =>
    obtain rfl | mem := List.mem_cons.mp mem
    · exact ⟨_, complete⟩
    · exact ih mem

theorem Lead.any_breaksLine (lead : Lead pieces rest) :
    pieces.any breaksLine = true ↔ ∃ t ∈ pieces, ∃ c ∈ t.chars, t.CountsAsBreak c := by
  rw [List.any_eq_true]
  constructor
  · intro ⟨t, mem, breaks⟩
    obtain ⟨ds, complete⟩ := lead.complete mem
    exact ⟨t, mem, (breaksLine_iff complete).mp breaks⟩
  · intro ⟨t, mem, counts⟩
    obtain ⟨ds, complete⟩ := lead.complete mem
    exact ⟨t, mem, (breaksLine_iff complete).mpr counts⟩

end Trivia

/-- The offset right behind some tokens from the start of a text on. -/
def stopOf (ts : List Lexeme) : Nat := (ts.getLast?.map Lexeme.stop).getD 0

/-- What stands in front of a token `t`, from the end of those before it on. -/
def gap (text : String) (before : List Lexeme) (t : Lexeme) : List Char :=
  ((⟨stopOf before, t.start⟩ : TextRange).slice text).toList

/-- The gap in front of a token is made up of these trivia. -/
structure IsGap (text : String) (before : List Lexeme) (t : Lexeme) (pieces : List Trivia) : Prop where
  chars : gap text before t = pieces.flatMap Trivia.chars
  lead : Trivia.Lead pieces (dropBytes t.start text.toList)

/-- A token is scanned from a place right behind the tokens before it. -/
theorem Cursor.Scans.place {c : Cursor} {ts : List Lexeme} (h : Scans c ts) {text : String}
    (of : c.Of text) {before after : List Lexeme} {t : Lexeme} (split : ts = before ++ t :: after) :
    ∃ p : Cursor, p.Of text ∧ p.scan.1 = t ∧
      p.offset = (before.getLast?.map Lexeme.stop).getD c.offset := by
  induction h generalizing before with
  | ending last =>
    cases before with
    | nil => exact ⟨_, of, (List.cons.inj split).1, rfl⟩
    | cons b before => simp at split
  | cons more others ih =>
    cases before with
    | nil => exact ⟨_, of, (List.cons.inj split).1, rfl⟩
    | cons b before =>
      obtain ⟨first, split⟩ := List.cons.inj split
      obtain ⟨p, place, scanned, offset⟩ := ih of.scan split
      refine ⟨p, place, scanned, ?_⟩
      rw [offset, offset_scan, first, List.getLast?_cons]
      cases before.getLast? with
      | none => rfl
      | some last => rfl

/-- What trivia say about the token behind them, and that there are no others. -/
structure Decides (text : String) (before : List Lexeme) (t : Lexeme) (pieces : List Trivia) :
    Prop where
  isGap_iff : ∀ others, IsGap text before t others ↔ others = pieces
  onNewLine : t.onNewLine = pieces.any Trivia.breaksLine
  comment : t.comment = Trivia.leadingComment (stopOf before) pieces

theorem Decides.isGap {text : String} {before : List Lexeme} {t : Lexeme} {pieces : List Trivia}
    (h : Decides text before t pieces) : IsGap text before t pieces :=
  (h.isGap_iff pieces).mpr rfl

/-- The trivia in front of a token say whether it is on a new line and which comment leads it. -/
theorem exists_decides {text : String} {before after : List Lexeme} {t : Lexeme}
    (h : lexemes text = before ++ t :: after) (closed : ¬ t.Unclosed) :
    ∃ pieces, Decides text before t pieces := by
  have scans : Cursor.Scans ⟨0, text.toList⟩ (lexemes text) := Cursor.scans_iff.mpr rfl
  obtain ⟨p, ⟨front, split, offset⟩, scanned, stop⟩ := scans.place ⟨[], rfl, rfl⟩ h
  have closed' : (Trivia.skip p.rest).closed = true := by
    by_contra unclosed
    apply closed
    rw [← scanned, Cursor.scan, if_neg unclosed]
    exact ⟨rfl, rfl, rfl⟩
  obtain ⟨rest_eq, lead, -⟩ := Trivia.lead_skip p.rest
  have token : Trivia.front (Trivia.skip p.rest).rest = .token :=
    Trivia.front_rest_skipFrom [] p.rest closed'
  have fields : p.scan = _ := Cursor.scan_closed closed'
  let pieces := (Trivia.skip p.rest).pieces
  let rest := (Trivia.skip p.rest).rest
  have start : t.start = stopOf before + byteLength (pieces.flatMap Trivia.chars) := by
    rw [← scanned, fields, stop]
    rfl
  have place : stopOf before = byteLength front := stop.symm.trans offset
  have whole : text.toList = front ++ (pieces.flatMap Trivia.chars ++ rest) := by
    rw [split, ← rest_eq]
  have gap_eq : gap text before t = pieces.flatMap Trivia.chars := by
    rw [gap, start, place, slice_eq whole, String.toList_ofList]
  have behind : dropBytes t.start text.toList = rest := by
    rw [start, place, whole, ← byteLength_append, ← List.append_assoc, dropBytes_byteLength]
  refine ⟨pieces, fun others => ⟨?_, ?_⟩, ?_, ?_⟩
  · intro is_gap
    have same := Trivia.skip_of_lead (behind ▸ is_gap.lead) token
    rw [← is_gap.chars, gap_eq, ← rest_eq] at same
    exact (congrArg Trivia.Gap.pieces same).symm
  · intro same
    rw [same]
    exact ⟨gap_eq, behind.symm ▸ lead⟩
  · rw [← scanned, fields]
  · rw [← scanned, fields, stop]
    rfl

/-- A token is on a new line if there is a line break in its gap that counts. Where no comment of the gap
has a Unicode separator of lines or paragraphs in it, all line breaks of the gap count. -/
theorem onNewLine_iff_of_lexemes {text : String} {before after : List Lexeme} {t : Lexeme}
    (h : lexemes text = before ++ t :: after) (closed : ¬ t.Unclosed) :
    ∃ pieces, (∀ others, IsGap text before t others ↔ others = pieces) ∧
      (t.onNewLine = true ↔ ∃ k ∈ pieces, ∃ c ∈ k.chars, k.CountsAsBreak c) ∧
      ((∀ k ∈ pieces, k.isComment = true → '\u2028' ∉ k.chars ∧ '\u2029' ∉ k.chars) →
        (t.onNewLine = true ↔ ∃ c ∈ gap text before t, isLineBreak c = true)) := by
  obtain ⟨pieces, decides⟩ := exists_decides h closed
  have counts : t.onNewLine = true ↔ ∃ k ∈ pieces, ∃ c ∈ k.chars, k.CountsAsBreak c := by
    rw [decides.onNewLine]
    exact decides.isGap.lead.any_breaksLine
  refine ⟨pieces, decides.isGap_iff, counts, ?_⟩
  intro plain
  rw [counts, decides.isGap.chars]
  constructor
  · intro ⟨k, mem, c, mem_chars, breaks, _⟩
    exact ⟨c, List.mem_flatMap.mpr ⟨k, mem, mem_chars⟩, breaks⟩
  · intro ⟨c, mem, breaks⟩
    obtain ⟨k, mem, mem_chars⟩ := List.mem_flatMap.mp mem
    refine ⟨k, mem, c, mem_chars, breaks, ?_⟩
    intro comment
    obtain ⟨no_line, no_paragraph⟩ := plain k mem comment
    simp only [isLineBreak, Bool.or_eq_true, decide_eq_true_eq] at breaks
    obtain ((lf | cr) | line) | paragraph := breaks
    · exact .inl lf
    · exact .inr cr
    · exact absurd (line ▸ mem_chars) no_line
    · exact absurd (paragraph ▸ mem_chars) no_paragraph

/-- The second word stands behind a comment that goes over the end of a line. -/
theorem onNewLine_iff_of_lexemes_comment :
    let text := "a /* b\n*/ c"
    let a : Lexeme := ⟨.identifier, 0, "a", false, none, none⟩
    let c : Lexeme := ⟨.identifier, 10, "c", true, none, none⟩
    ∃ after, lexemes text = [a] ++ c :: after ∧ ¬ c.Unclosed ∧ ∃ pieces,
      (∀ others, IsGap text [a] c others ↔ others = pieces) ∧
        ∃ k ∈ pieces, ∃ x ∈ k.chars, k.CountsAsBreak x := by
  intro text a c
  have scanned : lexemes text = [a] ++ c :: [⟨.endOfFileToken, 11, "", false, none, none⟩] := by
    decide +kernel
  have closed : ¬ c.Unclosed := by
    intro unclosed
    cases unclosed.kind
  obtain ⟨pieces, only, counts, -⟩ := onNewLine_iff_of_lexemes scanned closed
  exact ⟨_, scanned, closed, pieces, only, counts.mp rfl⟩

/-- A separator of lines in a comment ends a line, but does not put the next token on a new one. -/
theorem not_onNewLine_iff : ¬ ∀ (text : String) (before after : List Lexeme) (t : Lexeme),
    lexemes text = before ++ t :: after → ¬ t.Unclosed →
      (t.onNewLine = true ↔ ∃ c ∈ gap text before t, isLineBreak c = true) := by
  intro same
  let text := "a /*\u2028*/ b"
  let a : Lexeme := ⟨.identifier, 0, "a", false, none, none⟩
  let b : Lexeme := ⟨.identifier, 10, "b", false, none, none⟩
  have scanned : lexemes text = [a] ++ b :: [⟨.endOfFileToken, 11, "", false, none, none⟩] := by
    decide +kernel
  have closed : ¬ b.Unclosed := by
    intro unclosed
    cases unclosed.kind
  have breaks : ∃ c ∈ gap text [a] b, isLineBreak c = true := by
    refine ⟨'\u2028', ?_, rfl⟩
    decide +kernel
  have counted : b.onNewLine = true := (same text [a] _ b scanned closed).mpr breaks
  cases counted

end Ambient

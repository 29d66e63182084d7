import Ambient.Proofs.Lexeme.Pieces
import Ambient.Proofs.Text.LineEnds

namespace Ambient

namespace Trivia

variable {cs rest : List Char}

/-- What a piece of trivia becomes. -/
def crlf : Trivia → List Trivia
  | .blank c => (Ambient.crlf [c]).map .blank
  | .lineBreak c => (Ambient.crlf [c]).map .lineBreak
  | .lineComment body => [.lineComment (Ambient.crlf body)]
  | .blockComment body => [.blockComment (Ambient.crlf body)]

theorem bodyLength?_crlf (n n' : Nat) (cs : List Char) :
    bodyLength? n' (Ambient.crlf cs) =
      (bodyLength? n cs).map fun m => n' + (Ambient.crlf (cs.take (m - n))).length := by
  fun_induction bodyLength? n cs generalizing n' with
  | case1 => rfl
  | case2 n cs =>
    rw [crlf_cons (by decide), crlf_cons (by decide), bodyLength?]
    simp [Ambient.crlf]
  | case3 n c cs other ih =>
    have body {m : Nat} (h : bodyLength? (n + 1) cs = some m) :
        (c :: cs).take (m - n) = c :: cs.take (m - (n + 1)) := by
      have le := le_of_bodyLength? h
      rw [show m - n = m - (n + 1) + 1 by omega, List.take_succ_cons]
    by_cases lf : c = '\n'
    · subst lf
      rw [crlf_newline, bodyLength?_cons (by simp), bodyLength?_cons (by simp), ih]
      refine Option.map_congr fun m found => ?_
      rw [body found, crlf_newline, List.length_cons, List.length_cons]
      omega
    · have other' (rest : List Char) (star : c = '*') (slash : Ambient.crlf cs = '/' :: rest) :
          False := by
        rcases cs with _ | ⟨d, cs⟩
        · cases slash
        · by_cases lf : d = '\n'
          · rw [lf, crlf_newline] at slash
            simp at slash
          · rw [crlf_cons lf] at slash
            exact other cs star (by rw [(List.cons.inj slash).1])
      rw [crlf_cons lf, bodyLength?_cons other', ih]
      refine Option.map_congr fun m found => ?_
      rw [body found, crlf_cons lf, List.length_cons]
      omega

theorem flatMap_chars_crlf (t : Trivia) : (crlf t).flatMap chars = Ambient.crlf t.chars := by
  cases t with
  | blank c | lineBreak c => simp [crlf, chars, List.flatMap_map]
  | lineComment body =>
    rw [chars, crlf_cons (by decide), crlf_cons (by decide)]
    simp [crlf, chars]
  | blockComment body =>
    rw [chars, crlf_cons (by decide), crlf_cons (by decide), crlf_append]
    simp [crlf, chars, Ambient.crlf]

theorem front_crlf_lineComment (cs : List Char) : front (Ambient.crlf ('/' :: '/' :: cs)) =
    .piece (.lineComment (Ambient.crlf (cs.takeWhile inLineComment)))
      (Ambient.crlf (cs.dropWhile inLineComment)) := by
  obtain ⟨take, drop⟩ := takeWhile_crlf (p := inLineComment) rfl rfl cs
  have plain : '\n' ∉ cs.takeWhile inLineComment := fun mem =>
    absurd (List.all_eq_true.mp List.all_takeWhile _ mem) (by decide)
  rw [crlf_cons (by decide), crlf_cons (by decide), front, take, drop, crlf_eq_self plain]

theorem front_crlf_blockComment {n : Nat} {cs : List Char} (found : bodyLength? 0 cs = some n) :
    front (Ambient.crlf ('/' :: '*' :: cs)) =
      .piece (.blockComment (Ambient.crlf (cs.take n))) (Ambient.crlf (cs.drop (n + 2))) := by
  have found' := bodyLength?_crlf 0 0 cs
  obtain ⟨split, -⟩ := split_of_bodyLength? found
  rw [found, Option.map_some, Nat.sub_zero, Nat.zero_add] at found'
  rw [Nat.sub_zero] at split
  have whole : Ambient.crlf cs = Ambient.crlf (cs.take n) ++
      '*' :: '/' :: Ambient.crlf (cs.drop (n + 2)) := by
    conv_lhs => rw [split]
    rw [crlf_append, crlf_cons (by decide), crlf_cons (by decide)]
  rw [crlf_cons (by decide), crlf_cons (by decide), front, found']
  simp only [whole, List.take_left, ← List.drop_drop, List.drop_left]
  rfl

/-- The trivia with which a text starts, one after the other. -/
theorem skipFrom_crlf_piece {t : Trivia} (skipped : List Trivia) (h : front cs = .piece t rest) :
    skipFrom skipped (Ambient.crlf cs) = skipFrom ((crlf t).reverse ++ skipped) (Ambient.crlf rest) := by
  unfold front at h
  split at h
  · rename_i cs
    obtain ⟨rfl, rfl⟩ := Front.piece.inj h
    exact skipFrom_piece skipped (front_crlf_lineComment cs)
  · rename_i cs
    split at h
    · rename_i n found
      obtain ⟨rfl, rfl⟩ := Front.piece.inj h
      exact skipFrom_piece skipped (front_crlf_blockComment found)
    · cases h
  · rename_i c cs line block
    split at h
    · rename_i lineBreak
      obtain ⟨rfl, rfl⟩ := Front.piece.inj h
      by_cases lf : c = '\n'
      · subst lf
        rw [crlf_newline, skipFrom_piece _ (front_lineBreak rfl _),
          skipFrom_piece _ (front_lineBreak rfl _)]
        rfl
      · rw [crlf_cons lf, skipFrom_piece _ (front_lineBreak lineBreak _), crlf, crlf_cons lf, crlf_nil]
        rfl
    · rename_i lineBreak
      split at h
      · rename_i blank
        obtain ⟨rfl, rfl⟩ := Front.piece.inj h
        have lf : c ≠ '\n' := by rintro rfl; exact lineBreak rfl
        rw [crlf_cons lf, skipFrom_piece _ (front_blank lineBreak blank _), crlf, crlf_cons lf,
          crlf_nil]
        rfl
      · cases h
  · cases h

theorem front_crlf_unclosed (h : front cs = .unclosed) : front (Ambient.crlf cs) = .unclosed := by
  unfold front at h
  split at h
  · cases h
  · split at h
    · cases h
    · rename_i cs _ none
      have none' := bodyLength?_crlf 0 0 cs
      rw [none, Option.map_none] at none'
      rw [crlf_cons (by decide), crlf_cons (by decide), front, none']
  · split at h
    · cases h
    · split at h <;> cases h
  · cases h

theorem front_crlf_token (h : front cs = .token) : front (Ambient.crlf cs) = .token := by
  cases cs with
  | nil => rfl
  | cons c cs =>
    obtain ⟨closed, lineBreak, blank⟩ := front_eq_token_iff.mp h
    have lf : c ≠ '\n' := by rintro rfl; cases lineBreak
    have closed' : ¬ Opens (c :: Ambient.crlf cs) := by
      rintro ⟨ds, eq⟩
      rcases cs with _ | ⟨d, cs⟩
      · simp [Ambient.crlf] at eq
      · by_cases is : d = '\n'
        · simp [is, crlf_newline] at eq
        · refine closed ⟨cs, ?_⟩
          simp only [crlf_cons is, List.cons.injEq] at eq ⊢
          tauto
    rw [crlf_cons lf]
    exact front_eq_token_iff.mpr ⟨closed', lineBreak, blank⟩

theorem skipFrom_crlf (skipped skipped' : List Trivia) (cs : List Char)
    (same : skipped'.reverse = skipped.reverse.flatMap crlf) :
    skipFrom skipped' (Ambient.crlf cs) = ⟨(skipFrom skipped cs).pieces.flatMap crlf,
      Ambient.crlf (skipFrom skipped cs).rest, (skipFrom skipped cs).closed⟩ := by
  fun_induction skipFrom skipped cs generalizing skipped' with
  | case1 skipped cs t rest front ih =>
    rw [skipFrom_crlf_piece skipped' front]
    exact ih _ (by simp [same])
  | case2 skipped cs front => rw [skipFrom_of_unclosed (front_crlf_unclosed front), same]
  | case3 skipped cs front => rw [skipFrom_of_token (front_crlf_token front), same]

theorem skip_crlf (cs : List Char) : skip (Ambient.crlf cs) =
    ⟨(skip cs).pieces.flatMap crlf, Ambient.crlf (skip cs).rest, (skip cs).closed⟩ :=
  skipFrom_crlf [] [] cs rfl

theorem breaksLine_crlf (t : Trivia) : (crlf t).any breaksLine = t.breaksLine := by
  cases t with
  | blank c | lineBreak c =>
    by_cases lf : c = '\n'
    · subst lf
      rfl
    · simp [crlf, crlf_cons lf, crlf_nil, breaksLine]
  | lineComment body => rfl
  | blockComment body =>
    have all : (Ambient.crlf body).all inLineComment = body.all inLineComment := by
      induction body with
      | nil => rfl
      | cons c body ih =>
        by_cases lf : c = '\n'
        · subst lf
          rfl
        · rw [crlf_cons lf, List.all_cons, List.all_cons, ih]
    simp [crlf, breaksLine, all]

/-- Searches that have found the same comment, but for line ends. -/
structure Search.Turned (s s' : Search) : Prop where
  leading : s.leading = s'.leading
  found : s'.found.map Comment.text =
    s.found.map fun c => String.ofList (Ambient.crlf c.text.toList)

theorem Search.Turned.comment {s s' : Search} (h : s.Turned s') {t t' : Trivia}
    (is : t.isComment = true) (is' : t'.isComment = true) (line : t.isLineBreak = t'.isLineBreak)
    (chars_eq : t'.chars = Ambient.crlf t.chars) : (s.pass t).Turned (s'.pass t') where
  leading := by rw [Search.pass, Search.pass, h.leading, line]
  found := by
    simp only [Search.pass, is, is', Bool.and_true, h.leading]
    split
    · simp [chars_eq]
    · exact h.found

theorem Search.Turned.pass {s s' : Search} (h : s.Turned s') (t : Trivia) :
    (s.pass t).Turned ((crlf t).foldl Search.pass s') := by
  have ⟨leading, found⟩ := h
  cases t with
  | blank c | lineBreak c =>
    by_cases lf : c = '\n'
    · subst lf
      exact ⟨by simp [Search.pass, crlf, crlf_newline, crlf_nil, isLineBreak, leading],
        by simp [Search.pass, crlf, crlf_newline, crlf_nil, isComment, found]⟩
    · exact ⟨by simp [Search.pass, crlf, crlf_cons lf, crlf_nil, isLineBreak, leading],
        by simp [Search.pass, crlf, crlf_cons lf, crlf_nil, isComment, found]⟩
  | lineComment body | blockComment body =>
    refine h.comment rfl rfl rfl ?_
    rw [← flatMap_chars_crlf, crlf, List.flatMap_singleton]

theorem Search.Turned.foldl {s s' : Search} (h : s.Turned s') (pieces : List Trivia) :
    (pieces.foldl Search.pass s).Turned ((pieces.flatMap crlf).foldl Search.pass s') := by
  induction pieces generalizing s s' with
  | nil => exact h
  | cons t pieces ih =>
    rw [List.flatMap_cons, List.foldl_append, List.foldl_cons]
    exact ih (h.pass t)

end Trivia

namespace Reading

/-- A token is read in the same way, or it is a string literal that a line feed ends. -/
theorem ofChars_crlf {cs : List Char} (front : Trivia.front cs = .token) :
    '\n' ∉ cs.take (ofChars cs).length ∧ ofChars (crlf cs) = ofChars cs ∨
      ((ofChars cs).kind = .stringLiteral ∧ '\n' ∈ cs.take (ofChars cs).length) ∧
        (ofChars (crlf cs)).error ≠ none := by
  by_cases mem : '\n' ∈ cs
  · obtain ⟨line, rest, rfl, none, eq⟩ := crlf_split mem
    have line_left : line ≠ [] := by
      rintro rfl
      cases front
    rw [eq]
    rcases ofChars_lines line_left with ⟨r, le, -, same⟩ | ⟨-, quote, is_quote, same⟩
    · rw [same, same, List.take_append_of_le_length le]
      exact .inl ⟨fun mem => none (List.mem_of_mem_take mem), rfl⟩
    · refine .inr ⟨⟨by rw [same]; rfl, ?_⟩, ?_⟩
      · rw [same]
        have long : line.length + 1 ≤ (literal (stringLength quote (line.length + 1) rest)).length :=
          length_stringLength quote (line.length + 1) rest
        obtain ⟨k, long⟩ := Nat.exists_eq_add_of_le long
        rw [long, Nat.add_assoc, List.take_length_add_append, Nat.add_comm 1, List.take_succ_cons]
        exact List.mem_append_right _ List.mem_cons_self
      · have other : '\n' ≠ quote := by rcases is_quote with rfl | rfl <;> decide
        have stops (n : Nat) (cs : List Char) : stringLength quote n ('\n' :: cs) = (n, false) := by
          rw [stringLength.eq_def]
          simp only [if_neg other]
          rfl
        rw [same, stops]
        simp [literal]
  · rw [crlf_eq_self mem]
    exact .inl ⟨fun found => mem (List.mem_of_mem_take found), rfl⟩

end Reading

/-- A string literal that goes over the end of a line. -/
def Lexeme.SpansLines (t : Lexeme) : Prop := t.kind = .stringLiteral ∧ '\n' ∈ t.text.toList

/-- Tokens that a text and the same text with other line ends have in common. -/
structure Lexeme.Turned (t t' : Lexeme) : Prop where
  kind : t.kind = t'.kind
  text : t.text = t'.text
  onNewLine : t.onNewLine = t'.onNewLine
  error : t.error = t'.error
  comment : t'.comment.map Comment.text =
    t.comment.map fun c => String.ofList (crlf c.text.toList)

namespace Cursor

/-- A place in a text, and the same place if that has other line ends. -/
structure Turned (all before : List Char) (c c' : Cursor) : Prop where
  text_eq : all = before ++ c.rest
  offset_eq : c.offset = byteLength before
  offset_eq' : c'.offset = byteLength (crlf before)
  rest_eq : c'.rest = crlf c.rest

/-- Offsets of one place in a text and in the same text with other line ends. -/
def SamePlace (all : List Char) (p p' : Nat) : Prop :=
  ∃ before rest, all = before ++ rest ∧ p = byteLength before ∧ p' = byteLength (crlf before)

variable {all before : List Char} {c c' : Cursor}

theorem Turned.leadingComment (h : Turned all before c c') (pieces : List Trivia) :
    (Trivia.leadingComment c'.offset (pieces.flatMap Trivia.crlf)).map Comment.text =
      (Trivia.leadingComment c.offset pieces).map fun c =>
        String.ofList (crlf c.text.toList) := by
  have start : Trivia.Search.Turned ⟨c.offset, c.offset = 0, none⟩ ⟨c'.offset, c'.offset = 0, none⟩ := by
    refine ⟨?_, rfl⟩
    simp only [h.offset_eq, h.offset_eq', byteLength_eq_zero, crlf_eq_nil]
  exact (start.foldl pieces).found

/-- The next token is the same at the same place, or it is a string literal that a line feed ends. -/
theorem Turned.scan (h : Turned all before c c') :
    (c.scan.1.Turned c'.scan.1 ∧ '\n' ∉ c.scan.1.text.toList ∧
        SamePlace all c.scan.1.start c'.scan.1.start ∧ ∃ before, Turned all before c.scan.2 c'.scan.2) ∨
      c.scan.1.SpansLines ∧ c'.scan.1.error ≠ none := by
  have split := (Trivia.lead_skip c.rest).1
  have skip := h.rest_eq ▸ Trivia.skip_crlf c.rest
  generalize gap : (Trivia.skip c.rest).pieces = pieces at split skip
  generalize left : (Trivia.skip c.rest).rest = rest at split skip
  have chars : (pieces.flatMap Trivia.crlf).flatMap Trivia.chars =
      crlf (pieces.flatMap Trivia.chars) := by
    rw [List.flatMap_assoc, crlf, List.flatMap_assoc]
    simp only [Trivia.flatMap_chars_crlf]
    rfl
  have line : (pieces.flatMap Trivia.crlf).any Trivia.breaksLine = pieces.any Trivia.breaksLine := by
    rw [List.any_flatMap]
    simp only [Trivia.breaksLine_crlf]
  have comment := h.leadingComment pieces
  have start : c.offset + byteLength (pieces.flatMap Trivia.chars) =
      byteLength (before ++ pieces.flatMap Trivia.chars) := by
    rw [byteLength_append, h.offset_eq]
  have start' : c'.offset + byteLength (crlf (pieces.flatMap Trivia.chars)) =
      byteLength (crlf (before ++ pieces.flatMap Trivia.chars)) := by
    rw [crlf_append, byteLength_append, h.offset_eq']
  have text_eq : all = before ++ pieces.flatMap Trivia.chars ++ rest := by
    rw [h.text_eq, List.append_assoc, ← split]
  cases closed : (Trivia.skip c.rest).closed with
  | false =>
    have scan : c.scan = _ := if_neg (Bool.eq_false_iff.mp closed)
    have scan' : c'.scan = _ := if_neg (by rw [skip, closed]; exact Bool.false_ne_true)
    rw [skip] at scan'
    simp only [gap, left, chars, line, start, start', ← byteLength_append] at scan scan'
    have ends : SamePlace all _ _ := ⟨all, [], by simp, rfl, rfl⟩
    rw [scan, scan', ← crlf_append, ← text_eq]
    exact .inl ⟨⟨rfl, rfl, rfl, rfl, comment⟩, by simp, ends, all, by simp, rfl, rfl, rfl⟩
  | true =>
    have scan : c.scan = _ := if_pos closed
    have scan' : c'.scan = _ := if_pos (by rw [skip, closed])
    rw [skip] at scan'
    simp only [gap, left, chars, line, start, start', ← byteLength_append] at scan scan'
    have here : SamePlace all _ _ := ⟨_, rest, text_eq, rfl, rfl⟩
    have token : Trivia.front rest = .token := left ▸ Trivia.front_rest_skipFrom [] c.rest closed
    rw [scan, scan', Lexeme.SpansLines, String.toList_ofList]
    rcases Reading.ofChars_crlf token with ⟨none, same⟩ | ⟨spans, malformed⟩
    · obtain ⟨taken, dropped⟩ := take_crlf none
      have next : all = before ++ pieces.flatMap Trivia.chars ++
          rest.take (Reading.ofChars rest).length ++ rest.drop (Reading.ofChars rest).length := by
        rw [text_eq, List.append_assoc, List.append_assoc, List.take_append_drop, List.append_assoc]
      have offset : crlf (before ++ pieces.flatMap Trivia.chars) ++
          rest.take (Reading.ofChars rest).length = crlf (before ++ pieces.flatMap Trivia.chars ++
            rest.take (Reading.ofChars rest).length) := by
        rw [crlf_append _ (rest.take _), crlf_eq_self none]
      rw [same, taken, dropped, offset]
      exact .inl ⟨⟨rfl, rfl, rfl, rfl, comment⟩, none, here, _, next, rfl, rfl, rfl⟩
    · exact .inr ⟨spans, malformed⟩

/-- Scanning on gives the same tokens, or among those with the other line ends there is a string literal
that a line feed ends. -/
theorem Scans.turned {ts : List Lexeme} (h : Scans c ts) (turned : Turned all before c c') :
    (∃ ts', Scans c' ts' ∧
        ts.Forall₂ (fun t t' => t.Turned t' ∧ SamePlace all t.start t'.start) ts' ∧
        ∀ t ∈ ts, '\n' ∉ t.text.toList) ∨
      (∃ t ∈ ts, t.SpansLines) ∧ ∃ ts', Scans c' ts' ∧ ∃ t' ∈ ts', t'.error ≠ none := by
  induction h generalizing before c' with
  | @ending c last =>
    rcases turned.scan with ⟨same, none, place, -⟩ | ⟨mem, malformed⟩
    · exact .inl ⟨_, .ending (same.kind ▸ last), .cons ⟨same, place⟩ .nil,
        List.forall_mem_singleton.mpr none⟩
    · obtain ⟨ts', others⟩ := exists_scans c'
      exact .inr ⟨⟨_, List.mem_cons_self, mem⟩, ts', others, _,
        List.mem_of_mem_head? others.head, malformed⟩
  | @cons c ts more others ih =>
    rcases turned.scan with ⟨same, none, place, before, next⟩ | ⟨mem, malformed⟩
    · have more' := same.kind ▸ more
      rcases ih next with ⟨ts', others', alike, plain⟩ | ⟨⟨t, mem, lf⟩, ts', others', t', mem', malformed⟩
      · exact .inl ⟨_, .cons more' others', .cons ⟨same, place⟩ alike,
          List.forall_mem_cons.mpr ⟨none, plain⟩⟩
      · exact .inr ⟨⟨t, List.mem_cons_of_mem _ mem, lf⟩, _, .cons more' others', t',
          List.mem_cons_of_mem _ mem', malformed⟩
    · obtain ⟨ts', others'⟩ := exists_scans c'
      exact .inr ⟨⟨_, List.mem_cons_self, mem⟩, ts', others', _,
        List.mem_of_mem_head? others'.head, malformed⟩

end Cursor

/-- A text with other line ends has the same tokens at the same places, or a malformed one where a string
literal goes over the end of a line. -/
theorem lexemes_withCrlf (text : String) :
    (lexemes text).Forall₂
        (fun t t' => t.Turned t' ∧ Cursor.SamePlace text.toList t.start t'.start)
        (lexemes (withCrlf text)) ∧ (∀ t ∈ lexemes text, '\n' ∉ t.text.toList) ∨
      (∃ t ∈ lexemes text, t.SpansLines) ∧
        ∃ t' ∈ lexemes (withCrlf text), t'.error ≠ none := by
  have start : Cursor.Turned text.toList [] ⟨0, text.toList⟩ ⟨0, (withCrlf text).toList⟩ :=
    ⟨rfl, rfl, rfl, String.toList_ofList⟩
  have scans : Cursor.Scans ⟨0, text.toList⟩ (lexemes text) := Cursor.scans_iff.mpr rfl
  rcases scans.turned start with ⟨ts', scans', alike, plain⟩ | ⟨mem, ts', scans', malformed⟩
  · obtain rfl := Cursor.scans_iff.mp scans'
    exact .inl ⟨alike, plain⟩
  · obtain rfl := Cursor.scans_iff.mp scans'
    exact .inr ⟨mem, malformed⟩

end Ambient

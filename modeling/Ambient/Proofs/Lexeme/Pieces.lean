import Ambient.Proofs.Lexeme.Append

namespace Ambient

theorem byteLength_cons (c : Char) (cs : List Char) :
    byteLength (c :: cs) = c.utf8Size + byteLength cs := rfl

theorem byteLength_append (cs ds : List Char) :
    byteLength (cs ++ ds) = byteLength cs + byteLength ds := by
  induction cs with
  | nil => exact (Nat.zero_add _).symm
  | cons c cs ih => rw [List.cons_append, byteLength_cons, ih, byteLength_cons, Nat.add_assoc]

theorem dropBytes_byteLength (cs ds : List Char) : dropBytes (byteLength cs) (cs ++ ds) = ds := by
  induction cs with
  | nil => cases ds <;> rfl
  | cons c cs ih =>
    have := c.utf8Size_pos
    rw [List.cons_append, byteLength_cons, dropBytes, Nat.add_sub_cancel_left, ih]
    omega

theorem takeBytes_byteLength (cs ds : List Char) : takeBytes (byteLength cs) (cs ++ ds) = cs := by
  induction cs with
  | nil => cases ds <;> rfl
  | cons c cs ih =>
    have := c.utf8Size_pos
    rw [List.cons_append, byteLength_cons, takeBytes, Nat.add_sub_cancel_left, ih]
    omega

/-- The part of a text between the places behind `before` and in front of `behind`. -/
theorem slice_eq {text : String} {before piece behind : List Char}
    (h : text.toList = before ++ (piece ++ behind)) :
    (⟨byteLength before, byteLength before + byteLength piece⟩ : TextRange).slice text =
      String.ofList piece := by
  rw [TextRange.slice, h, Nat.add_sub_cancel_left, dropBytes_byteLength, takeBytes_byteLength]

/-- A place behind some characters of a text is between two characters. -/
theorem isValid_byteLength {text : String} {before behind : List Char}
    (h : text.toList = before ++ behind) :
    (⟨byteLength before⟩ : String.Pos.Raw).IsValid text := by
  rw [String.Pos.Raw.isValid_iff_exists_append]
  refine ⟨String.ofList before, String.ofList behind, ?_, ?_⟩
  · rw [← String.ofList_append, ← h, String.ofList_toList]
  · rw [← Cursor.utf8ByteSize_ofList]
    rfl

namespace Trivia

variable {cs rest : List Char} {t : Trivia}

/-- A piece of trivia as it can stand in front of `rest`: it is throughout what it is a piece of, a line
comment takes up its line, and a block comment ends at its first end. -/
def Complete (rest : List Char) : Trivia → Prop
  | .blank c => isBlank c = true
  | .lineBreak c => Ambient.isLineBreak c = true
  | .lineComment body =>
    (∀ c ∈ body, inLineComment c = true) ∧ ∀ c ∈ rest.head?, inLineComment c = false
  | .blockComment body => ¬ ['*', '/'] <:+: body ++ ['*']

/-- Complete pieces of trivia in front of `rest`. -/
inductive Lead : List Trivia → List Char → Prop where
  | nil {rest : List Char} : Lead [] rest
  | cons {t : Trivia} {pieces : List Trivia} {rest : List Char}
      (complete : t.Complete (pieces.flatMap chars ++ rest)) (others : Lead pieces rest) :
      Lead (t :: pieces) rest

/-- The start of a block comment without end. -/
def Unclosed (cs : List Char) : Prop := ∃ body, cs = '/' :: '*' :: body ∧ ¬ ['*', '/'] <:+: body

theorem not_infix_cons {c : Char} (other : ∀ rest, c = '*' → cs = '/' :: rest → False)
    (h : ¬ ['*', '/'] <:+: cs) : ¬ ['*', '/'] <:+: c :: cs := by
  rw [List.infix_cons_iff, not_or]
  refine ⟨?_, h⟩
  rintro ⟨rest, eq⟩
  cases eq
  exact other rest rfl rfl

theorem bodyLength?_cons {c : Char} (other : ∀ rest, c = '*' → cs = '/' :: rest → False) (n : Nat) :
    bodyLength? n (c :: cs) = bodyLength? (n + 1) cs := by
  rw [bodyLength?]
  exact other

theorem le_of_bodyLength? {n m : Nat} (h : bodyLength? n cs = some m) : n ≤ m := by
  fun_induction bodyLength? n cs with
  | case1 => cases h
  | case2 n cs => exact Nat.le_of_eq (Option.some.inj h)
  | case3 n c cs _ ih => exact Nat.le_of_succ_le (ih h)

/-- The body of a block comment stands in front of its first end. -/
theorem split_of_bodyLength? {n m : Nat} (h : bodyLength? n cs = some m) :
    cs = cs.take (m - n) ++ '*' :: '/' :: cs.drop (m - n + 2) ∧
      ¬ ['*', '/'] <:+: cs.take (m - n) ++ ['*'] := by
  fun_induction bodyLength? n cs with
  | case1 => cases h
  | case2 n cs =>
    obtain rfl := Option.some.inj h
    rw [Nat.sub_self, List.take_zero]
    exact ⟨rfl, fun found => absurd found.length_le (by simp)⟩
  | case3 n c cs other ih =>
    obtain ⟨split, first⟩ := ih h
    have le := le_of_bodyLength? h
    obtain ⟨k, rfl⟩ : ∃ k, m = n + 1 + k := ⟨m - (n + 1), by omega⟩
    rw [Nat.add_sub_cancel_left] at split first
    rw [show n + 1 + k - n = k + 1 by omega]
    refine ⟨by simpa using split, not_infix_cons (fun rest star slash => ?_) first⟩
    -- the body goes on with the slash, or the end of the comment starts with it
    cases k with
    | zero => simp at slash
    | succ k =>
      cases cs with
      | nil => simp at slash
      | cons d cs =>
        cases slash
        exact other cs star rfl

theorem not_infix_of_bodyLength? {n : Nat} (h : bodyLength? n cs = none) : ¬ ['*', '/'] <:+: cs := by
  fun_induction bodyLength? n cs with
  | case1 => simp
  | case2 => cases h
  | case3 n c cs other ih => exact not_infix_cons other (ih h)

/-- What a text starts with is a piece of it. -/
theorem chars_front (h : front cs = .piece t rest) : cs = t.chars ++ rest ∧ t.Complete rest := by
  unfold front at h
  split at h
  · cases h
    refine ⟨by simp [chars, List.takeWhile_append_dropWhile],
      List.all_eq_true.mp List.all_takeWhile, fun c first => ?_⟩
    have := List.head?_dropWhile_not inLineComment ‹_›
    rw [first] at this
    simpa using this
  · split at h
    · cases h
      obtain ⟨split, first⟩ := split_of_bodyLength? ‹_›
      refine ⟨?_, first⟩
      rw [chars, List.cons_append, List.cons_append, List.append_assoc]
      exact congrArg (fun body => '/' :: '*' :: body) split
    · cases h
  · split at h
    · cases h
      exact ⟨rfl, ‹_›⟩
    · split at h
      · cases h
        exact ⟨rfl, ‹_›⟩
      · cases h
  · cases h

theorem unclosed_of_front (h : front cs = .unclosed) : Unclosed cs := by
  unfold front at h
  split at h
  · cases h
  · split at h
    · cases h
    · exact ⟨_, rfl, not_infix_of_bodyLength? ‹_›⟩
  · split at h
    · cases h
    · split at h <;> cases h
  · cases h

/-- The trivia in front of a token are pieces of the text. -/
theorem lead_skipFrom (skipped : List Trivia) (cs : List Char) :
    ∃ pieces, (skipFrom skipped cs).pieces = skipped.reverse ++ pieces ∧
      cs = pieces.flatMap chars ++ (skipFrom skipped cs).rest ∧
      Lead pieces (skipFrom skipped cs).rest ∧
      ((skipFrom skipped cs).closed = false → Unclosed (skipFrom skipped cs).rest) := by
  fun_induction skipFrom skipped cs with
  | case1 skipped cs t rest front ih =>
    obtain ⟨eq, complete⟩ := chars_front front
    obtain ⟨pieces, found, split, others, unclosed⟩ := ih
    refine ⟨t :: pieces, ?_, ?_, .cons (split ▸ complete) others, unclosed⟩
    · rw [found, List.reverse_cons, List.append_assoc]
      rfl
    · rw [List.flatMap_cons, List.append_assoc, ← split]
      exact eq
  | case2 skipped cs front =>
    exact ⟨[], (List.append_nil _).symm, rfl, .nil, fun _ => unclosed_of_front front⟩
  | case3 skipped cs front =>
    exact ⟨[], (List.append_nil _).symm, rfl, .nil, fun closed => absurd closed.symm Bool.false_ne_true⟩

theorem lead_skip (cs : List Char) :
    cs = (skip cs).pieces.flatMap chars ++ (skip cs).rest ∧ Lead (skip cs).pieces (skip cs).rest ∧
      ((skip cs).closed = false → Unclosed (skip cs).rest) := by
  obtain ⟨pieces, found, rest⟩ := lead_skipFrom [] cs
  have eq : (skip cs).pieces = pieces := found
  rw [eq]
  exact rest

/-- Where a search for the leading comment of a token stands: what it has found is a piece that it has
passed. -/
structure Search.Sound (s : Search) (offset : Nat) (passed : List Char) : Prop where
  offset_eq : s.offset = offset + byteLength passed
  found : ∀ c ∈ s.found, ∃ before behind, passed = before ++ (c.text.toList ++ behind) ∧
    c.start = offset + byteLength before

theorem Search.Sound.pass {s : Search} {offset : Nat} {passed : List Char}
    (h : s.Sound offset passed) (t : Trivia) : (s.pass t).Sound offset (passed ++ t.chars) where
  offset_eq := by rw [byteLength_append, ← Nat.add_assoc, ← h.offset_eq]; rfl
  found c mem := by
    rw [Search.pass] at mem
    split at mem
    · obtain rfl := Option.some.inj mem
      exact ⟨passed, [], by simp, h.offset_eq⟩
    · obtain ⟨before, behind, eq, start⟩ := h.found c mem
      exact ⟨before, behind ++ t.chars, by simp [eq], start⟩

theorem Search.Sound.passAll {s : Search} {offset : Nat} {passed : List Char}
    (h : s.Sound offset passed) (pieces : List Trivia) :
    (pieces.foldl Search.pass s).Sound offset (passed ++ pieces.flatMap chars) := by
  induction pieces generalizing s passed with
  | nil => simpa using h
  | cons t pieces ih =>
    have := ih (h.pass t)
    rwa [List.append_assoc] at this

/-- The comment that leads a token is cut out of the trivia in front of it. -/
theorem cut_leadingComment {offset : Nat} {pieces : List Trivia} {c : Comment}
    (h : leadingComment offset pieces = some c) :
    ∃ before behind, pieces.flatMap chars = before ++ (c.text.toList ++ behind) ∧
      c.start = offset + byteLength before := by
  have start : Search.Sound ⟨offset, offset = 0, none⟩ offset [] := ⟨rfl, by simp⟩
  exact (start.passAll pieces).found c h

end Trivia

namespace Reading

theorem kind_number (cs : List Char) : (number cs).kind = .numericLiteral := by
  unfold number
  split
  · rfl
  · rfl
  · unfold decimal
    simp only
    split <;> exact kind_exponent _ _

/-- A string literal that is closed ends with its quote. -/
theorem take_stringLength (quote : Char) (n : Nat) (cs : List Char)
    (closed : (stringLength quote n cs).2 = true) :
    ∃ body, cs.take ((stringLength quote n cs).1 - n) = body ++ [quote] := by
  fun_induction stringLength quote n cs with
  | case1 | case3 | case4 => cases closed
  | case2 n cs =>
    rw [Nat.add_sub_cancel_left]
    exact ⟨[], rfl⟩
  | case5 n d cs _ _ ih =>
    obtain ⟨body, eq⟩ := ih closed
    rw [stringLength_sub]
    exact ⟨'\\' :: d :: body, by simp [eq]⟩
  | case6 n c cs _ _ _ ih =>
    obtain ⟨body, eq⟩ := ih closed
    rw [stringLength_sub]
    exact ⟨c :: body, by simp [eq]⟩

/-- A string literal is its quote, what stands between the quotes, and the quote again if it is not
malformed. -/
theorem take_string (quote : Char) (cs : List Char) :
    ∃ body, (quote :: cs).take (string quote cs).length =
      quote :: (body ++ if (string quote cs).error.isSome then [] else [quote]) := by
  have long := length_stringLength quote 1 cs
  obtain ⟨k, length⟩ := Nat.exists_eq_add_of_le long
  have whole : (quote :: cs).take (string quote cs).length = quote :: cs.take k := by
    change (quote :: cs).take (stringLength quote 1 cs).1 = _
    rw [length, Nat.add_comm, List.take_succ_cons]
  rw [whole]
  cases closed : (stringLength quote 1 cs).2 with
  | true =>
    obtain ⟨body, taken⟩ := take_stringLength quote 1 cs closed
    rw [length, Nat.add_sub_cancel_left] at taken
    exact ⟨body, by simp [taken, string, closed]⟩
  | false => exact ⟨cs.take k, by simp [string, closed]⟩

/-- A string literal starts with a quote. -/
theorem ofChars_string {cs : List Char} (h : (ofChars cs).kind = .stringLiteral) :
    ∃ quote rest, (quote = '"' ∨ quote = '\'') ∧ cs = quote :: rest ∧
      ofChars cs = string quote rest := by
  have no_mark : ∀ entry ∈ punctuation, entry.2 ≠ .stringLiteral := by decide
  unfold ofChars at h ⊢
  split at h
  · cases h
  · cases h
  · cases h
  · split at h
    · rw [kind_number] at h
      cases h
    · cases h
  · rename_i c rest _ _ _
    unfold single at h ⊢
    split at h
    · rename_i kind found
      obtain ⟨before, behind, eq, -⟩ := List.lookup_eq_some_iff.mp found
      exact absurd h (no_mark (c, kind) (by rw [eq]; simp))
    · rename_i found
      split_ifs at h with equals dot quote digit start
      · exact ⟨c, rest, by simpa using quote, rfl, by simp [equals, dot, quote]⟩
      · rw [kind_number] at h
        cases h
      · cases word : Kind.keyword? (String.ofList ((c :: rest).takeWhile isIdentifierPart)) with
        | none => simp [Reading.word, word] at h
        | some k =>
          have isKeyword := Kind.isAnyKeyword_of_keyword? word
          simp only [Reading.word, word, Option.getD_some] at h
          rw [h] at isKeyword
          cases isKeyword

end Reading

/-- The token that stands for a block comment without end. -/
structure Lexeme.Unclosed (t : Lexeme) : Prop where
  kind : t.kind = .unknown
  text : t.text = ""
  error : t.error = some .commentEndExpected

/-- How a token follows the one before it: trivia stand between them, and in front of the token for a
block comment without end that comment. The text goes on with `rest` behind that. -/
def Lexeme.Behind (t : Lexeme) (gap rest : List Char) : Prop :=
  ∃ pieces unclosed, gap = pieces.flatMap Trivia.chars ++ unclosed ∧
    Trivia.Lead pieces (unclosed ++ rest) ∧ (unclosed = [] ∨ Trivia.Unclosed unclosed ∧ t.Unclosed)

theorem Lexeme.value_of_string {t : Lexeme} {quote : Char} {body : List Char}
    (string : t.kind = .stringLiteral)
    (text : t.text.toList = quote :: (body ++ if t.error.isSome then [] else [quote])) :
    t.value.toList = body := by
  rw [Lexeme.value, if_pos string, text]
  cases t.error.isSome <;> simp

namespace Cursor

/-- How the next token is cut off the text at a place: behind `gap`, with `rest` behind it. -/
structure Cuts (c : Cursor) (gap : List Char) : Prop where
  rest_eq : c.rest = gap ++ (c.scan.1.text.toList ++ c.scan.2.rest)
  start_eq : c.scan.1.start = c.offset + byteLength gap
  behind : c.scan.1.Behind gap (c.scan.1.text.toList ++ c.scan.2.rest)
  comment : ∀ found ∈ c.scan.1.comment, ∃ before behind,
    gap = before ++ (found.text.toList ++ behind) ∧ found.start = c.offset + byteLength before

theorem cuts_scan (c : Cursor) : ∃ gap, c.Cuts gap := by
  obtain ⟨split, lead, unclosed⟩ := Trivia.lead_skip c.rest
  have leading : c.scan.1.comment = Trivia.leadingComment c.offset (Trivia.skip c.rest).pieces := by
    unfold scan
    simp only
    split <;> rfl
  have comment (rest : List Char) : ∀ found ∈ c.scan.1.comment, ∃ before behind,
      (Trivia.skip c.rest).pieces.flatMap Trivia.chars ++ rest =
        before ++ (found.text.toList ++ behind) ∧ found.start = c.offset + byteLength before := by
    intro found mem
    obtain ⟨before, behind, cut, start⟩ := Trivia.cut_leadingComment (leading ▸ mem)
    exact ⟨before, behind ++ rest, by simp [cut], start⟩
  cases closed : (Trivia.skip c.rest).closed with
  | true =>
    have scanned : c.scan = _ := if_pos closed
    have token : c.scan.1.text.toList ++ c.scan.2.rest = (Trivia.skip c.rest).rest := by
      rw [scanned, String.toList_ofList, List.take_append_drop]
    refine ⟨_, ?_, ?_, ⟨_, [], rfl, ?_, .inl rfl⟩, comment []⟩
    · rw [token, List.append_nil]
      exact split
    · rw [scanned, List.append_nil]
    · rw [token]
      exact lead
  | false =>
    have scanned : c.scan = _ := if_neg (Bool.eq_false_iff.mp closed)
    have token : c.scan.1.text.toList ++ c.scan.2.rest = [] := by
      rw [scanned]
      rfl
    refine ⟨_, ?_, ?_, ⟨_, (Trivia.skip c.rest).rest, rfl, ?_, .inr ⟨unclosed closed, ?_⟩⟩,
      comment _⟩
    · rw [token, List.append_nil]
      exact split
    · rw [scanned, byteLength_append, Nat.add_assoc]
    · rw [token, List.append_nil]
      exact lead
    · rw [scanned]
      constructor <;> rfl

/-- Only the token for a block comment without end, and the end of the text, have no text. -/
theorem unclosed_scan {c : Cursor} (more : c.scan.1.kind ≠ .endOfFileToken)
    (none : c.scan.1.text = "") : c.scan.1.Unclosed :=
  have ⟨kind, error, _⟩ := scan_of_no_text more none
  ⟨kind, none, error⟩

/-- The value of a string literal is what stands between its quotes. -/
theorem value_scan {c : Cursor} (string : c.scan.1.kind = .stringLiteral) :
    ∃ quote, (quote = '"' ∨ quote = '\'') ∧ c.scan.1.text.toList =
      quote :: (c.scan.1.value.toList ++ if c.scan.1.error.isSome then [] else [quote]) := by
  cases closed : (Trivia.skip c.rest).closed with
  | false =>
    have scanned : c.scan = _ := if_neg (Bool.eq_false_iff.mp closed)
    rw [scanned] at string
    cases string
  | true =>
    have scanned : c.scan = _ := if_pos closed
    have kind : (Reading.ofChars (Trivia.skip c.rest).rest).kind = .stringLiteral := by
      rw [scanned] at string
      exact string
    obtain ⟨quote, rest, is_quote, eq, read⟩ := Reading.ofChars_string kind
    obtain ⟨body, taken⟩ := Reading.take_string quote rest
    have text : c.scan.1.text.toList =
        quote :: (body ++ if c.scan.1.error.isSome then [] else [quote]) := by
      rw [scanned, read, String.toList_ofList, eq]
      exact taken
    refine ⟨quote, is_quote, ?_⟩
    rw [Lexeme.value_of_string string text, text]

end Cursor

end Ambient

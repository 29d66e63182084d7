import Mathlib.Tactic.Common
import Ambient.Grammar.Stream

namespace Ambient

/-- What is known of a token that was read from a text. -/
structure Lexeme.Genuine (t : Lexeme) : Prop where
  identifier : t.kind = .identifier → Kind.keyword? t.text = none
  keyword : t.kind.isAnyKeyword = true → Kind.keyword? t.text = some t.kind
  malformed : t.error.isSome = true →
    t.kind = .unknown ∨ t.kind = .stringLiteral ∨ t.kind = .numericLiteral

theorem Lexeme.Genuine.error_eq_none {t : Lexeme} (h : t.Genuine) (unknown : t.kind ≠ .unknown)
    (string : t.kind ≠ .stringLiteral) (number : t.kind ≠ .numericLiteral) : t.error = none := by
  by_contra malformed
  rcases h.malformed (Option.isSome_iff_ne_none.mpr malformed) with is | is | is
  · exact unknown is
  · exact string is
  · exact number is

theorem Kind.isAnyKeyword_of_keyword? {text : String} {k : Kind} (h : keyword? text = some k) :
    k.isAnyKeyword = true := by
  obtain ⟨entry, found, rfl⟩ := Option.map_eq_some_iff.mp h
  have all : ∀ entry ∈ keywords, entry.1.isAnyKeyword = true := by decide
  exact all entry (List.mem_of_find?_eq_some found)

namespace Reading

/-- The kinds of tokens that are no words. -/
def IsMark (k : Kind) : Prop := k ≠ .identifier ∧ k.isAnyKeyword = false

/-- What is known of the token at the start of a text. -/
structure Sound (r : Reading) (cs : List Char) : Prop where
  identifier : r.kind = .identifier → Kind.keyword? (String.ofList (cs.take r.length)) = none
  keyword : r.kind.isAnyKeyword = true →
    Kind.keyword? (String.ofList (cs.take r.length)) = some r.kind
  malformed : r.error.isSome = true →
    r.kind = .unknown ∨ r.kind = .stringLiteral ∨ r.kind = .numericLiteral
  more : r.kind ≠ .endOfFileToken
  length_pos : 0 < r.length

theorem sound_of_isMark {r : Reading} {cs : List Char} (mark : IsMark r.kind)
    (malformed : r.error.isSome = true →
      r.kind = .unknown ∨ r.kind = .stringLiteral ∨ r.kind = .numericLiteral)
    (more : r.kind ≠ .endOfFileToken) (length_pos : 0 < r.length) : r.Sound cs :=
  ⟨fun h => absurd h mark.1, fun h => absurd (mark.2.symm.trans h) (by decide), malformed, more,
    length_pos⟩

theorem sound_number {r : Reading} {cs : List Char} (kind : r.kind = .numericLiteral)
    (length_pos : 0 < r.length) : r.Sound cs :=
  sound_of_isMark (by rw [kind]; exact ⟨by decide, by decide⟩) (fun _ => .inr (.inr kind))
    (by rw [kind]; decide) length_pos

theorem kind_exponent (n : Nat) (cs : List Char) : (exponent n cs).kind = .numericLiteral := by
  unfold exponent
  split
  · split <;> rfl
  · rfl

theorem length_exponent (n : Nat) (cs : List Char) : n ≤ (exponent n cs).length := by
  unfold exponent
  split
  · split
    · simp only
      omega
    · exact Nat.le_refl n
  · exact Nat.le_refl n

theorem digitCount_pos {c : Char} (h : isDigit c = true) (cs : List Char) :
    0 < digitCount (c :: cs) := by
  rw [digitCount, List.takeWhile_cons_of_pos h]
  exact Nat.succ_pos _

/-- A number starts with a digit, or with a point and a digit. -/
theorem sound_decimal {cs all : List Char}
    (h : 0 < digitCount cs ∨ ∃ rest, cs = '.' :: rest) : (decimal cs).Sound all := by
  unfold decimal
  simp only
  split
  · exact sound_number (kind_exponent _ _) (Nat.lt_of_lt_of_le (by omega) (length_exponent _ _))
  · rename_i rest differ
    rcases h with digits | ⟨rest, rfl⟩
    · exact sound_number (kind_exponent _ _) (Nat.lt_of_lt_of_le digits (length_exponent _ _))
    · exact absurd rfl (differ rest)

theorem sound_numberReading {cs all : List Char}
    (h : 0 < digitCount cs ∨ ∃ rest, cs = '.' :: rest) : (number cs).Sound all := by
  unfold number
  split
  · exact sound_number rfl (by simp only [hexadecimal]; omega)
  · exact sound_number rfl (by simp only [hexadecimal]; omega)
  · exact sound_decimal h

theorem length_stringLength (quote : Char) (n : Nat) (cs : List Char) :
    n ≤ (stringLength quote n cs).1 := by
  fun_induction stringLength quote n cs <;> omega

/-- What is read of a string literal behind its next `k` characters. -/
theorem stringLength_sub (quote : Char) (n k : Nat) (cs : List Char) :
    (stringLength quote (n + k) cs).1 - n = (stringLength quote (n + k) cs).1 - (n + k) + k := by
  have le := length_stringLength quote (n + k) cs
  omega

theorem sound_string (quote : Char) (cs all : List Char) : (string quote cs).Sound all := by
  have long := length_stringLength quote 1 cs
  exact sound_of_isMark ⟨by simp [string], by simp only [string]; decide⟩
    (fun _ => .inr (.inl rfl)) (by simp [string]) long

theorem sound_word {c : Char} (h : isIdentifierStart c = true) (cs : List Char) :
    (word (c :: cs)).Sound (c :: cs) := by
  have part : isIdentifierPart c = true := by simp [isIdentifierPart, h]
  have letters := List.prefix_iff_eq_take.mp (List.takeWhile_prefix (l := c :: cs) isIdentifierPart)
  have long : 0 < (word (c :: cs)).length := by
    rw [word, List.takeWhile_cons_of_pos part]
    exact Nat.succ_pos _
  cases found : Kind.keyword? (String.ofList ((c :: cs).takeWhile isIdentifierPart)) with
  | none =>
    have kind : (word (c :: cs)).kind = .identifier := by simp only [word, found, Option.getD_none]
    refine ⟨fun _ => ?_, ?_, fun malformed => absurd malformed (by simp [word]), ?_, long⟩
    · rw [← found]
      exact congrArg (fun cs => Kind.keyword? (String.ofList cs)) letters.symm
    · rw [kind]
      exact fun h => absurd h (by decide)
    · rw [kind]
      decide
  | some k =>
    have kind : (word (c :: cs)).kind = k := by simp only [word, found, Option.getD_some]
    have isKeyword := Kind.isAnyKeyword_of_keyword? found
    refine ⟨?_, fun _ => ?_, fun malformed => absurd malformed (by simp [word]), ?_, long⟩
    · rw [kind]
      rintro rfl
      exact absurd isKeyword (by decide)
    · rw [kind, ← found]
      exact congrArg (fun cs => Kind.keyword? (String.ofList cs)) letters.symm
    · rw [kind]
      rintro rfl
      exact absurd isKeyword (by decide)

theorem sound_mark {k : Kind} {n : Nat} {cs : List Char} (mark : IsMark k)
    (more : k ≠ .endOfFileToken) (length_pos : 0 < n) : (⟨k, n, none⟩ : Reading).Sound cs :=
  sound_of_isMark mark (fun h => absurd h (by simp)) more length_pos

theorem isMark_of_lookup {c : Char} {k : Kind} (h : punctuation.lookup c = some k) :
    IsMark k ∧ k ≠ .endOfFileToken := by
  have marks : ∀ entry ∈ punctuation,
      (entry.2 ≠ .identifier ∧ entry.2.isAnyKeyword = false) ∧ entry.2 ≠ .endOfFileToken := by
    decide
  obtain ⟨before, behind, eq, -⟩ := List.lookup_eq_some_iff.mp h
  exact marks (c, k) (by rw [eq]; simp)

theorem sound_single (c : Char) (cs : List Char) : (single c cs).Sound (c :: cs) := by
  unfold single
  split
  · rename_i kind found
    have := isMark_of_lookup found
    exact sound_mark this.1 this.2 Nat.one_pos
  · split_ifs with equals dot quote digit start
    · exact sound_mark ⟨by decide, by decide⟩ (by decide) Nat.one_pos
    · exact sound_mark ⟨by decide, by decide⟩ (by decide) Nat.one_pos
    · exact sound_string c cs _
    · exact sound_numberReading (.inl (digitCount_pos digit cs))
    · exact sound_word start cs
    · exact sound_of_isMark ⟨by decide, by decide⟩ (fun _ => .inl rfl) (by decide) Nat.one_pos

theorem sound_ofChars {cs : List Char} (h : cs ≠ []) : (ofChars cs).Sound cs := by
  unfold ofChars
  split
  · exact absurd rfl h
  · exact sound_mark ⟨by decide, by decide⟩ (by decide) (by decide)
  · exact sound_mark ⟨by decide, by decide⟩ (by decide) (by decide)
  · split_ifs
    · exact sound_numberReading (.inr ⟨_, rfl⟩)
    · exact sound_mark ⟨by decide, by decide⟩ (by decide) (by decide)
  · exact sound_single _ _

theorem ne_nil_of_more {cs : List Char} (more : (ofChars cs).kind ≠ .endOfFileToken) : cs ≠ [] := by
  rintro rfl
  exact more rfl

end Reading

namespace Trivia

theorem length_skipFrom (skipped : List Trivia) (cs : List Char) :
    (skipFrom skipped cs).rest.length ≤ cs.length := by
  fun_induction skipFrom skipped cs with
  | case1 skipped cs t rest h ih => exact Nat.le_of_lt (Nat.lt_of_le_of_lt ih (length_lt_of_front h))
  | case2 | case3 => exact Nat.le_refl _

/-- A block comment without end is not empty. -/
theorem rest_ne_nil_of_not_closed (skipped : List Trivia) (cs : List Char)
    (h : (skipFrom skipped cs).closed = false) : (skipFrom skipped cs).rest ≠ [] := by
  fun_induction skipFrom skipped cs with
  | case1 skipped cs t rest front ih => exact ih h
  | case2 skipped cs front =>
    rintro rfl
    simp [Trivia.front] at front
  | case3 => simp at h

end Trivia

namespace Cursor

theorem genuine_scan (c : Cursor) : c.scan.1.Genuine := by
  unfold scan
  simp only
  split
  · by_cases nil : (Trivia.skip c.rest).rest = []
    · simp only [nil, Reading.ofChars]
      exact ⟨fun h => absurd h (by simp), fun h => absurd h (by simp; decide),
        fun h => absurd h (by simp)⟩
    · have sound := Reading.sound_ofChars nil
      exact ⟨sound.identifier, sound.keyword, sound.malformed⟩
  · exact ⟨fun h => absurd h (by simp), fun h => absurd h (by simp; decide), fun _ => .inl rfl⟩

/-- Every token but the last takes up text. -/
theorem length_scan {c : Cursor} (h : c.scan.1.kind ≠ .endOfFileToken) :
    c.scan.2.rest.length < c.rest.length := by
  have skipped := Trivia.length_skipFrom [] c.rest
  unfold scan at h ⊢
  simp only at h ⊢
  split at h
  · rename_i closed
    rw [if_pos closed]
    have some_left := Reading.ne_nil_of_more h
    have taken := (Reading.sound_ofChars some_left).length_pos
    have left := List.length_pos_iff.mpr some_left
    simp only [List.length_drop]
    rw [Trivia.skip] at *
    omega
  · rename_i unclosed
    rw [if_neg unclosed]
    have some_left := Trivia.rest_ne_nil_of_not_closed [] c.rest (Bool.eq_false_iff.mpr unclosed)
    have left := List.length_pos_iff.mpr some_left
    simp only [List.length_nil]
    omega

end Cursor

/-- Tokens that are genuine and of which the last one, and no other, is the end of a text. -/
inductive Scanned : List Lexeme → Prop where
  | ending {t : Lexeme} (kind : t.kind = .endOfFileToken) (genuine : t.Genuine) : Scanned [t]
  | cons {t : Lexeme} {ts : List Lexeme} (kind : t.kind ≠ .endOfFileToken) (genuine : t.Genuine)
      (others : Scanned ts) : Scanned (t :: ts)

theorem Cursor.scanned_lexemesFrom (before : List Lexeme) (bound : Nat) (c : Cursor)
    (enough : c.rest.length < bound) :
    ∃ ts, c.lexemesFrom before bound = before.reverse ++ ts ∧ Scanned ts := by
  induction bound generalizing before c with
  | zero => omega
  | succ bound ih =>
    rw [lexemesFrom]
    simp only
    split
    · rename_i last
      exact ⟨[c.scan.1], List.reverse_cons, .ending last c.genuine_scan⟩
    · rename_i more
      have shorter := length_scan more
      obtain ⟨ts, eq, scanned⟩ := ih (c.scan.1 :: before) c.scan.2 (by omega)
      refine ⟨c.scan.1 :: ts, ?_, .cons more c.genuine_scan scanned⟩
      rw [eq, List.reverse_cons, List.append_assoc]
      rfl

theorem scanned_lexemes (text : String) : Scanned (lexemes text) := by
  obtain ⟨ts, eq, scanned⟩ :=
    Cursor.scanned_lexemesFrom [] (text.length + 1) ⟨0, text.toList⟩
      (Nat.lt_succ_of_le (Nat.le_of_eq String.length_toList))
  rw [lexemes, eq]
  exact scanned

theorem Stream.toList_ofText (text : String) : (Stream.ofText text).toList = lexemes text := by
  have scanned := scanned_lexemes text
  unfold ofText
  split
  · rename_i t ts eq
    rw [eq]
    rfl
  · rename_i eq
    rw [eq] at scanned
    cases scanned

namespace Scanned

theorem tail {t : Lexeme} {ts : List Lexeme} (h : Scanned (t :: ts)) (more : ts ≠ []) :
    Scanned ts := by
  cases h with
  | ending _ _ => exact absurd rfl more
  | cons _ _ others => exact others

theorem of_append {read left : List Lexeme} (h : Scanned (read ++ left)) (some_left : left ≠ []) :
    Scanned left := by
  induction read with
  | nil => exact h
  | cons t read ih => exact ih (h.tail (by simp [some_left]))

theorem genuine_head {t : Lexeme} {ts : List Lexeme} (h : Scanned (t :: ts)) : t.Genuine := by
  cases h with
  | ending _ genuine => exact genuine
  | cons _ genuine _ => exact genuine

/-- Behind a token that is not the end of the text another one follows. -/
theorem ahead_ne_nil {t : Lexeme} {ts : List Lexeme} (h : Scanned (t :: ts))
    (more : t.kind ≠ .endOfFileToken) : ts ≠ [] := by
  cases h with
  | ending last _ => exact absurd last more
  | cons _ _ others => cases others <;> simp

theorem next {s : Stream} (h : Scanned s.toList) : Scanned s.next.toList := by
  obtain ⟨first, _ | ⟨second, others⟩⟩ := s
  · exact h
  · exact h.tail (List.cons_ne_nil second others)

/-- Nothing stands behind the end of the text. -/
theorem ahead_eq_nil {t : Lexeme} {ts : List Lexeme} (h : Scanned (t :: ts))
    (last : t.kind = .endOfFileToken) : ts = [] := by
  cases h with
  | ending _ _ => rfl
  | cons more _ _ => exact absurd last more

end Scanned

end Ambient

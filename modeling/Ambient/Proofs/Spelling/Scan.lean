import Ambient.Proofs.Lexeme.Pieces
import Ambient.Proofs.Spelling.Words

namespace Ambient

/-- A text that is one well-formed token of kind `k`. -/
def IsToken (k : Kind) (text : String) : Prop :=
  ∃ last, lexemes text = [⟨k, 0, text, false, none, none⟩, last]

/-- A text that can stand between double quotes as it is. -/
def IsQuotable (text : String) : Prop :=
  ∀ c ∈ text.toList, c ≠ '"' ∧ c ≠ '\\' ∧ isLineBreak c = false

namespace Word

/-- What may stand behind a word: nothing or a blank. -/
def Apart (cs : List Char) : Prop := cs = [] ∨ ∃ ds, cs = ' ' :: ds

/-- A word is the token that is scanned where it is written. -/
structure Sound (w : Word) : Prop where
  more : w.kind ≠ .endOfFileToken
  front : ∀ cs, Apart cs → Trivia.front (w.text.toList ++ cs) = .token
  reading : ∀ cs, Apart cs →
    Reading.ofChars (w.text.toList ++ cs) = ⟨w.kind, w.text.toList.length, none⟩

/-- A word by itself, with nothing behind it, and other than a string. -/
structure Alone (w : Word) : Prop where
  more : w.kind ≠ .endOfFileToken
  no_string : w.kind ≠ .stringLiteral
  front : Trivia.front w.text.toList = .token
  reading : Reading.ofChars w.text.toList = ⟨w.kind, w.text.toList.length, none⟩

theorem Alone.sound {w : Word} (h : w.Alone) : w.Sound := by
  have read := h.reading
  cases text : w.text.toList with
  | nil =>
    rw [text] at read
    exact absurd (congrArg Reading.kind read).symm h.more
  | cons c cs =>
    have quote : c ≠ '"' ∧ c ≠ '\'' := by
      rw [text] at read
      refine ⟨?_, ?_⟩
      all_goals
        rintro rfl
        exact h.no_string (congrArg Reading.kind read).symm
    refine ⟨h.more, ?_, ?_⟩
    · rintro _ (rfl | ⟨ds, rfl⟩)
      · rw [List.append_nil]
        exact h.front
      · exact Trivia.front_lines_token ' ' ds h.front (by simp [text])
    · rintro _ (rfl | ⟨ds, rfl⟩)
      · rw [List.append_nil]
        exact read
      · rw [← read, text]
        exact Reading.ofChars_of_not_quote quote cs ' ' ds

/-- The only token of a text is read from all of it. -/
theorem alone_of_isToken {k : Kind} {text : String} (no_string : k ≠ .stringLiteral)
    (h : IsToken k text) : (⟨k, text⟩ : Word).Alone := by
  obtain ⟨last, h⟩ := h
  have scans := Cursor.scans_iff.mpr h
  have first : (Cursor.scan ⟨0, text.toList⟩).1 = ⟨k, 0, text, false, none, none⟩ :=
    (Option.some.inj scans.head).symm
  have more : k ≠ .endOfFileToken := by
    rintro rfl
    have alone : Cursor.Scans ⟨0, text.toList⟩ _ := .ending (by rw [first])
    have eq := Cursor.scans_iff.mp alone
    simp [h] at eq
  have closed : (Trivia.skip text.toList).closed = true :=
    Cursor.closed_of_clean (c := ⟨0, text.toList⟩) (by rw [first])
  have token : Trivia.front (Trivia.skip text.toList).rest = .token :=
    Trivia.front_rest_skipFrom [] _ closed
  obtain ⟨split, -, -⟩ := Trivia.lead_skip text.toList
  rw [Cursor.scan_closed closed] at first
  simp only [Lexeme.mk.injEq] at first
  obtain ⟨kind, -, taken, -, -, clean⟩ := first
  -- the token is all of the text, so no trivia stand before it
  have taken : (Trivia.skip text.toList).rest.take
      (Reading.ofChars (Trivia.skip text.toList).rest).length = text.toList := by
    have all := congrArg String.toList taken
    rwa [String.toList_ofList] at all
  have whole : (Trivia.skip text.toList).rest = text.toList := by
    have long := congrArg List.length taken
    have all := congrArg List.length split
    rw [List.length_take] at long
    rw [List.length_append] at all
    have none : (Trivia.skip text.toList).pieces.flatMap Trivia.chars = [] :=
      List.eq_nil_of_length_eq_zero (by omega)
    rw [none, List.nil_append] at split
    exact split.symm
  rw [whole] at kind taken clean token
  have some_left : text.toList ≠ [] := by
    intro nil
    rw [nil] at kind
    exact more kind.symm
  obtain ⟨-, le⟩ := Reading.ofChars_lines_clean '\n' [] some_left clean
  have length : (Reading.ofChars text.toList).length = text.toList.length := by
    have long := congrArg List.length taken
    rw [List.length_take] at long
    omega
  refine ⟨more, no_string, token, ?_⟩
  rw [← length, ← kind, ← clean]

theorem keyword?_eq_none {text : String} (h : IsToken .identifier text) :
    Kind.keyword? text = none := by
  obtain ⟨last, h⟩ := h
  have genuine := (h ▸ scanned_lexemes text : Scanned (_ :: [last])).genuine_head
  exact genuine.identifier rfl

theorem sound_name {text : String} (h : IsToken .identifier text) : (name text).Sound := by
  have alone := alone_of_isToken (by decide) h
  rw [name, keyword?_eq_none h]
  exact alone.sound

theorem sound_number {text : String} (h : IsToken .numericLiteral text) : (number text).Sound :=
  (alone_of_isToken (by decide) h).sound

/-- Whether a word by itself is scanned as it is written. -/
def isScanned (w : Word) : Bool :=
  (Reading.ofChars w.text.toList).kind = w.kind &&
    (Reading.ofChars w.text.toList).length = w.text.toList.length &&
    (Reading.ofChars w.text.toList).error.isNone &&
    match Trivia.front w.text.toList with
    | .token => w.kind ≠ .endOfFileToken && w.kind ≠ .stringLiteral
    | _ => false

theorem alone_of_isScanned {w : Word} (h : w.isScanned = true) : w.Alone := by
  simp only [isScanned, Bool.and_eq_true, decide_eq_true_eq, Option.isNone_iff_eq_none] at h
  obtain ⟨⟨⟨kind, length⟩, clean⟩, h⟩ := h
  split at h
  · rename_i token
    simp only [Bool.and_eq_true, decide_eq_true_eq] at h
    refine ⟨h.1, h.2, token, ?_⟩
    rw [← kind, ← length, ← clean]
  · cases h

/-- The tokens of types that are always written the same way. -/
def marks : List Kind := Kind.keywordTypes ++ ([
  .openBraceToken, .closeBraceToken, .openParenToken, .closeParenToken, .openBracketToken,
  .closeBracketToken, .dotToken, .dotDotDotToken, .semicolonToken, .commaToken, .lessThanToken,
  .greaterThanToken, .equalsGreaterThanToken, .plusToken, .minusToken, .ampersandToken, .barToken,
  .questionToken, .colonToken, .equalsToken, .extendsKeyword, .falseKeyword, .inKeyword, .newKeyword,
  .thisKeyword, .trueKeyword, .typeOfKeyword, .privateKeyword, .protectedKeyword, .publicKeyword,
  .abstractKeyword, .asKeyword, .assertsKeyword, .isKeyword, .keyOfKeyword, .readonlyKeyword,
  .uniqueKeyword, .overrideKeyword] : List Kind)

theorem isScanned_mark : ∀ k ∈ marks, (mark k).isScanned = true := by decide +kernel

theorem sound_mark {k : Kind} (h : k ∈ marks) : (mark k).Sound :=
  (alone_of_isScanned (isScanned_mark k h)).sound

/-- Nothing in a quotable text ends the string in which it stands. -/
theorem stringLength_quotable {cs : List Char}
    (quotable : ∀ c ∈ cs, c ≠ '"' ∧ c ≠ '\\' ∧ isLineBreak c = false) (n : Nat) (ds : List Char) :
    Reading.stringLength '"' n (cs ++ '"' :: ds) = (n + cs.length + 1, true) := by
  induction cs generalizing n with
  | nil =>
    exact Reading.stringLength_quote '"' n ds
  | cons c cs ih =>
    obtain ⟨⟨quote, escape, line⟩, others⟩ := List.forall_mem_cons.mp quotable
    rw [List.cons_append, Reading.stringLength_inside quote line escape, ih others,
      List.length_cons, Nat.add_right_comm n 1, Nat.add_assoc n]

theorem sound_string {text : String} (h : IsQuotable text) : (string text).Sound := by
  have chars (cs : List Char) :
      (string text).text.toList ++ cs = '"' :: (text.toList ++ '"' :: cs) := by
    simp [string]
  have more : Kind.stringLiteral ≠ .endOfFileToken := by decide
  refine ⟨more, fun cs _ => ?_, fun cs _ => ?_⟩
  · rw [chars]
    rfl
  · have read : Reading.ofChars ('"' :: (text.toList ++ '"' :: cs)) =
        Reading.string '"' (text.toList ++ '"' :: cs) := rfl
    rw [chars, read, Reading.string, stringLength_quotable h]
    simp [string, Nat.add_comm]

theorem value_string {t : Lexeme} {text : String} (kind : t.kind = .stringLiteral)
    (written : t.text = (string text).text) (clean : t.error = none) : t.value = text := by
  simp [Lexeme.value, kind, written, clean, string]

end Word

/-- A token is written as the word `w`, on the line of the token before it. -/
structure Lexeme.Spells (t : Lexeme) (w : Word) : Prop where
  kind : t.kind = w.kind
  text : t.text = w.text
  line : t.onNewLine = false
  comment : t.comment = none
  clean : t.error = none

/-- The tokens from `s` up to `u` are written as some words. -/
def Stream.Spells (s : Stream) : List Word → Stream → Prop
  | [], u => s = u
  | w :: ws, u => s.current.Spells w ∧ s.ahead ≠ [] ∧ s.next.Spells ws u

namespace Stream

variable {s t u : Stream} {ws vs : List Word}

theorem spells_append : s.Spells (ws ++ vs) u ↔ ∃ t, s.Spells ws t ∧ t.Spells vs u := by
  induction ws generalizing s with
  | nil => simp [Spells]
  | cons w ws ih => simp only [List.cons_append, Spells, ih]; grind

theorem Spells.length_eq (h : s.Spells ws u) : s.toList.length = ws.length + u.toList.length := by
  induction ws generalizing s with
  | nil => simp [show s = u from h]
  | cons w ws ih =>
    obtain ⟨-, more, others⟩ := h
    have rest := ih others
    obtain ⟨first, _ | ⟨second, ahead⟩⟩ := s
    · exact absurd rfl more
    · simp only [toList, next, List.length_cons] at rest ⊢
      omega

theorem Spells.scanned (h : s.Spells ws u) (scanned : Scanned s.toList) : Scanned u.toList := by
  induction ws generalizing s with
  | nil => exact (show s = u from h) ▸ scanned
  | cons w ws ih => exact ih h.2.2 scanned.next

end Stream

namespace Cursor

theorem Scans.next {c : Cursor} {s : Stream} (h : Scans c s.toList)
    (more : c.scan.1.kind ≠ .endOfFileToken) :
    s.current = c.scan.1 ∧ s.ahead ≠ [] ∧ Scans c.scan.2 s.next.toList := by
  obtain ⟨first, ahead⟩ := s
  generalize eq : Stream.toList ⟨first, ahead⟩ = ts at h
  cases h with
  | ending last => exact absurd last more
  | cons _ others =>
    obtain ⟨rfl, rfl⟩ := List.cons.inj eq
    cases ahead with
    | nil => cases others
    | cons second ahead => exact ⟨rfl, List.cons_ne_nil _ _, others⟩

/-- Words with a blank in front of each are the tokens that follow. -/
theorem Scans.spells {ws : List Word} (sound : ∀ w ∈ ws, w.Sound) {k : Nat} {s : Stream}
    (h : Scans ⟨k, ws.flatMap fun w => ' ' :: w.text.toList⟩ s.toList) :
    ∃ u, s.Spells ws u ∧ u.current.kind = .endOfFileToken := by
  induction ws generalizing k s with
  | nil =>
    have first : s.current = (scan ⟨k, []⟩).1 := Option.some.inj h.head
    exact ⟨s, rfl, by rw [first, kind_scan_nil]⟩
  | cons w ws ih =>
    obtain ⟨whole, others⟩ := List.forall_mem_cons.mp sound
    let rest := ws.flatMap fun w => ' ' :: w.text.toList
    have apart : Word.Apart rest := by
      cases ws with
      | nil => exact .inl rfl
      | cons v ws => exact .inr ⟨_, rfl⟩
    have scanned : scan ⟨k, ' ' :: (w.text.toList ++ rest)⟩ = _ :=
      scan_blank w.text.toList (whole.front rest apart) (whole.reading rest apart)
    have here : Scans ⟨k, ' ' :: (w.text.toList ++ rest)⟩ s.toList := h
    obtain ⟨first, more, behind⟩ := here.next (by rw [scanned]; exact whole.more)
    rw [scanned] at first behind
    obtain ⟨u, spells, last⟩ := ih others behind
    rw [String.ofList_toList] at first
    exact ⟨u, ⟨by rw [first]; constructor <;> rfl, more, spells⟩, last⟩

end Cursor

theorem Stream.spells_join {ws : List Word} (sound : ∀ w ∈ ws, w.Sound) :
    ∃ u, (Stream.ofText (Word.join ws)).Spells ws u ∧ u.current.kind = .endOfFileToken := by
  have scans : Cursor.Scans ⟨0, (Word.join ws).toList⟩ (Stream.ofText (Word.join ws)).toList :=
    Cursor.scans_iff.mpr (Stream.toList_ofText _).symm
  rw [Word.join, String.toList_ofList] at scans
  exact scans.spells sound

end Ambient

import Ambient.Proofs.Lexeme.Genuine
import Mathlib.Data.List.Chain
import Mathlib.Data.String.Basic

namespace Ambient

/-- Scanning from a place on gives these tokens, of which the last one is the end of the text. -/
inductive Cursor.Scans : Cursor → List Lexeme → Prop where
  | ending {c : Cursor} (last : c.scan.1.kind = .endOfFileToken) : Scans c [c.scan.1]
  | cons {c : Cursor} {ts : List Lexeme} (more : c.scan.1.kind ≠ .endOfFileToken)
      (others : Scans c.scan.2 ts) : Scans c (c.scan.1 :: ts)

/-- How a token stands in front of the next one. -/
structure Lexeme.Before (t u : Lexeme) : Prop where
  stop_le : t.stop ≤ u.start
  unclosed : t.text = "" → t.kind = .unknown ∧ t.start = u.start
  last : t.text = "" → u.kind = .endOfFileToken

namespace Lexeme

variable {t u : Lexeme}

theorem stop_eq_start : t.stop = t.start ↔ t.text = "" := by
  rw [stop, Nat.add_eq_left, String.utf8ByteSize_eq_zero_iff]

theorem Before.start_le (h : t.Before u) : t.start ≤ u.start :=
  Nat.le_trans (Nat.le_add_right _ _) h.stop_le

/-- Two tokens that follow each other have one place only if the first has no text. -/
theorem Before.start_eq_iff (h : t.Before u) : t.start = u.start ↔ t.text = "" := by
  refine ⟨fun eq => ?_, fun none => (h.unclosed none).2⟩
  have le : t.start ≤ t.stop := Nat.le_add_right _ _
  exact stop_eq_start.mp (Nat.le_antisymm (eq ▸ h.stop_le) le)

end Lexeme

namespace Cursor

theorem Scans.of_scan_eq {c next : Cursor} {t : Lexeme} {ts : List Lexeme}
    (h : c.scan = (t, next)) (more : t.kind ≠ .endOfFileToken) (others : Scans next ts) :
    Scans c (t :: ts) := by
  have first : c.scan.1 = t := congrArg Prod.fst h
  have second : c.scan.2 = next := congrArg Prod.snd h
  rw [← first] at more ⊢
  exact .cons more (second ▸ others)

theorem lexemesFrom_succ (c : Cursor) (before : List Lexeme) (bound : Nat) :
    c.lexemesFrom before (bound + 1) =
      if c.scan.1.kind = .endOfFileToken then (c.scan.1 :: before).reverse
      else c.scan.2.lexemesFrom (c.scan.1 :: before) bound := rfl

theorem Scans.lexemesFrom {c : Cursor} {ts : List Lexeme} (h : Scans c ts) (before : List Lexeme)
    {bound : Nat} (enough : c.rest.length < bound) :
    c.lexemesFrom before bound = before.reverse ++ ts := by
  induction h generalizing before bound with
  | ending last =>
    obtain ⟨bound, rfl⟩ := Nat.exists_eq_succ_of_ne_zero (Nat.ne_zero_of_lt enough)
    rw [lexemesFrom_succ, if_pos last, List.reverse_cons]
  | cons more _ ih =>
    obtain ⟨bound, rfl⟩ := Nat.exists_eq_succ_of_ne_zero (Nat.ne_zero_of_lt enough)
    have shorter := length_scan more
    rw [lexemesFrom_succ, if_neg more, ih _ (by omega), List.reverse_cons, List.append_assoc]
    rfl

theorem exists_scans (c : Cursor) : ∃ ts, Scans c ts := by
  by_cases last : c.scan.1.kind = .endOfFileToken
  · exact ⟨_, .ending last⟩
  · obtain ⟨ts, others⟩ := exists_scans c.scan.2
    exact ⟨_, .cons last others⟩
termination_by c.rest.length
decreasing_by exact length_scan last

theorem scans_iff {text : String} {ts : List Lexeme} :
    Scans ⟨0, text.toList⟩ ts ↔ lexemes text = ts := by
  have enough : text.toList.length < text.length + 1 := by
    rw [String.length_toList]
    exact Nat.lt_succ_self _
  constructor
  · intro h
    exact h.lexemesFrom [] enough
  · rintro rfl
    obtain ⟨ts, h⟩ := exists_scans ⟨0, text.toList⟩
    have eq : lexemes text = ts := h.lexemesFrom [] enough
    rwa [eq]

theorem byteLength_eq_zero {cs : List Char} : byteLength cs = 0 ↔ cs = [] := by
  cases cs with
  | nil => simp [byteLength]
  | cons c cs =>
    have := c.utf8Size_pos
    simp only [byteLength, List.foldr_cons, List.cons_ne_nil, iff_false]
    omega

theorem utf8ByteSize_ofList (cs : List Char) : (String.ofList cs).utf8ByteSize = byteLength cs := by
  rw [String.utf8ByteSize_ofList]
  induction cs with
  | nil => rfl
  | cons c cs ih => rw [String.utf8Len_cons, ih, Nat.add_comm]; rfl

theorem le_start_scan (c : Cursor) : c.offset ≤ c.scan.1.start := by
  unfold scan
  simp only
  split
  · exact Nat.le_add_right _ _
  · exact Nat.le_add_right_of_le (Nat.le_add_right _ _)

/-- The next token is scanned from right behind a token on. -/
theorem offset_scan (c : Cursor) : c.scan.2.offset = c.scan.1.stop := by
  unfold scan Lexeme.stop
  simp only
  split
  · rw [utf8ByteSize_ofList]
  · rfl

/-- A token without text is a block comment without end, behind which the text ends. -/
theorem scan_of_no_text {c : Cursor} (more : c.scan.1.kind ≠ .endOfFileToken)
    (none : c.scan.1.text = "") : c.scan.1.kind = .unknown ∧
      c.scan.1.error = some .commentEndExpected ∧ c.scan.2.rest = [] := by
  unfold scan at more none ⊢
  simp only at more none ⊢
  split
  · rename_i closed
    rw [if_pos closed] at more none
    have some_left := Reading.ne_nil_of_more more
    have taken := (Reading.sound_ofChars some_left).length_pos
    have nothing : (Trivia.skip c.rest).rest.take (Reading.ofChars (Trivia.skip c.rest).rest).length
        = [] := String.ofList_injective none
    rcases List.take_eq_nil_iff.mp nothing with zero | nil
    · omega
    · exact absurd nil some_left
  · exact ⟨rfl, rfl, rfl⟩

theorem start_scan_nil (offset : Nat) : (scan ⟨offset, []⟩).1.start = offset := by
  rw [scan, Trivia.skip, Trivia.skipFrom]
  rfl

theorem kind_scan_nil (offset : Nat) : (scan ⟨offset, []⟩).1.kind = .endOfFileToken := by
  rw [scan, Trivia.skip, Trivia.skipFrom]
  rfl

/-- The next token stands behind a token. -/
theorem before_scan {c : Cursor} (more : c.scan.1.kind ≠ .endOfFileToken) :
    c.scan.1.Before c.scan.2.scan.1 := by
  have ending (none : c.scan.1.text = "") : c.scan.2 = ⟨c.scan.1.start, []⟩ := by
    obtain ⟨-, -, ended⟩ := scan_of_no_text more none
    rw [← Lexeme.stop_eq_start.mpr none, ← offset_scan, ← ended]
  refine ⟨c.offset_scan ▸ c.scan.2.le_start_scan, fun none => ?_, fun none => ?_⟩
  · rw [ending none, start_scan_nil]
    exact ⟨(scan_of_no_text more none).1, rfl⟩
  · rw [ending none, kind_scan_nil]

theorem Scans.head {c : Cursor} {ts : List Lexeme} (h : Scans c ts) : ts.head? = some c.scan.1 := by
  cases h <;> rfl

/-- Each token stands behind the one before it. -/
theorem Scans.isChain {c : Cursor} {ts : List Lexeme} (h : Scans c ts) :
    ts.IsChain Lexeme.Before := by
  induction h with
  | ending => exact .singleton _
  | cons more others ih =>
    refine ih.cons fun u first => ?_
    rw [others.head] at first
    obtain rfl := Option.some.inj first
    exact before_scan more

end Cursor

theorem isChain_lexemes (text : String) : (lexemes text).IsChain Lexeme.Before :=
  (Cursor.scans_iff.mpr rfl).isChain

end Ambient

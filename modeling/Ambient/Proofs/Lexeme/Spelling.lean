import Mathlib.Tactic.Common
import Ambient.Lexeme.Scan

namespace Ambient

namespace Trivia

theorem skipFrom_of_token {skipped : List Trivia} {cs : List Char} (h : front cs = .token) :
    skipFrom skipped cs = ⟨skipped.reverse, cs, true⟩ := by
  rw [skipFrom]
  split
  · simp_all
  · simp_all
  · rfl

theorem skip_of_token {cs : List Char} (h : front cs = .token) : skip cs = ⟨[], cs, true⟩ :=
  skipFrom_of_token h

theorem skip_piece {cs rest : List Char} {t : Trivia} (h : front cs = .piece t rest)
    (token : front rest = .token) : skip cs = ⟨[t], rest, true⟩ := by
  rw [skip, skipFrom]
  split
  · rename_i t' rest' eq
    rw [h] at eq
    obtain ⟨rfl, rfl⟩ := Front.piece.inj eq
    exact skipFrom_of_token token
  · simp_all
  · simp_all

end Trivia

namespace Reading

theorem word_append (letters : List Char) {cs : List Char}
    (inside : letters.all isIdentifierPart = true)
    (behind : ∀ c ∈ cs.head?, isIdentifierPart c = false) :
    word (letters ++ cs) =
      ⟨(Kind.keyword? (String.ofList letters)).getD .identifier, letters.length, none⟩ := by
  have taken : (letters ++ cs).takeWhile isIdentifierPart = letters := by
    rw [List.takeWhile_append_of_pos (List.all_eq_true.mp inside)]
    cases cs with
    | nil => simp
    | cons c cs => rw [List.takeWhile_cons_of_neg (by simp [behind c rfl]), List.append_nil]
  rw [word, taken]

end Reading

namespace Cursor

open Trivia

/-- A token that nothing stands before. -/
theorem scan_token (text : List Char) {offset : Nat} {cs : List Char} {kind : Kind}
    (front : front (text ++ cs) = .token)
    (reading : Reading.ofChars (text ++ cs) = ⟨kind, text.length, none⟩) :
    scan ⟨offset, text ++ cs⟩ =
      (⟨kind, offset, String.ofList text, false, none, none⟩, ⟨offset + byteLength text, cs⟩) := by
  rw [scan, skip_of_token front]
  simp [reading, leadingComment, byteLength]

/-- A token behind a blank. -/
theorem scan_blank (text : List Char) {offset : Nat} {cs : List Char} {kind : Kind}
    (front : front (text ++ cs) = .token)
    (reading : Reading.ofChars (text ++ cs) = ⟨kind, text.length, none⟩) :
    scan ⟨offset, ' ' :: (text ++ cs)⟩ =
      (⟨kind, offset + 1, String.ofList text, false, none, none⟩,
        ⟨offset + 1 + byteLength text, cs⟩) := by
  rw [scan, skip_piece (t := .blank ' ') rfl front]
  simp [reading, leadingComment, byteLength, chars, breaksLine, Search.pass, isComment]
  decide

/-- The lexemes of a text go on behind a token that is not the last one. -/
theorem lexemesFrom_cons {before : List Lexeme} {bound : Nat} {c next : Cursor} {t : Lexeme}
    (h : c.scan = (t, next)) (more : t.kind ≠ .endOfFileToken) :
    c.lexemesFrom before (bound + 1) = next.lexemesFrom (t :: before) bound := by
  rw [lexemesFrom, h]
  exact if_neg more

end Cursor

end Ambient

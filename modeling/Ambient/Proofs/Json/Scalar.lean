import Mathlib.Tactic.Common
import Ambient.Json.Printer
import Ambient.Json.Reader

namespace Ambient.Json

theorem skipBlanks_append {blanks : List Char} (h : ∀ c ∈ blanks, isBlank c = true)
    (cs : List Char) : skipBlanks (blanks ++ cs) = skipBlanks cs := by
  rw [skipBlanks, List.dropWhile_append_of_pos h, skipBlanks]

theorem skipBlanks_cons {c : Char} (h : isBlank c = false) (cs : List Char) :
    skipBlanks (c :: cs) = c :: cs := by
  simp [skipBlanks, h]

theorem hexValue?_hexDigit : ∀ n < 16, hexValue? (hexDigit n) = some n := by decide

theorem readChars?_putChar (before : List Char) (c : Char) (cs : List Char) :
    readChars? before (putChar c cs) = readChars? (c :: before) cs := by
  unfold putChar
  split_ifs with h1 h2 h3 h4 h5 h6 h7 h8
  · subst h1; rw [readChars?] <;> simp [escaped?]
  · subst h2; rw [readChars?] <;> simp [escaped?, List.lookup_cons]
  · subst h3; rw [readChars?] <;> simp [escaped?, List.lookup_cons]
  · subst h4; rw [readChars?] <;> simp [escaped?, List.lookup_cons]
  · subst h5; rw [readChars?] <;> simp [escaped?, List.lookup_cons]
  · subst h6; rw [readChars?] <;> simp [escaped?, List.lookup_cons]
  · subst h7; rw [readChars?] <;> simp [escaped?, List.lookup_cons]
  · have hi := hexValue?_hexDigit (c.toNat / 16) (by omega)
    have lo := hexValue?_hexDigit (c.toNat % 16) (by omega)
    have unit : unit? '0' '0' (hexDigit (c.toNat / 16)) (hexDigit (c.toNat % 16)) =
        some c.toNat := by
      simp only [unit?, hi, lo, show hexValue? '0' = some 0 from rfl]
      simp
      omega
    have high : isHighSurrogate c.toNat = false := by
      simp [isHighSurrogate]; omega
    have low : isLowSurrogate c.toNat = false := by
      simp [isLowSurrogate]; omega
    rw [readChars?]
    simp [unit, high, low]
  · rw [readChars?]
    · rw [if_neg (by simp [h2, Nat.not_lt.mp h8])]
    all_goals simp_all

theorem readChars?_foldr (cs : List Char) (before rest : List Char) :
    readChars? before (cs.foldr putChar ('"' :: rest)) =
      some (String.ofList (before.reverse ++ cs), rest) := by
  induction cs generalizing before with
  | nil => simp [readChars?]
  | cons c cs ih => rw [List.foldr_cons, readChars?_putChar, ih]; simp

/-- A text that does not go on with a number that stands before it. -/
def Delimited : List Char → Prop
  | [] => True
  | c :: _ => c = ',' ∨ c = ']' ∨ c = '\x7d' ∨ isBlank c = true

end Ambient.Json

namespace Ambient.JsonNumber

open Json

theorem foldl_addWhole (ds : List Char) (a : Nat) (h : Nat.ofDigitChars 10 ds a ≤ maxSignificand) :
    ds.foldl Accumulator.addWhole ⟨a, 0, false⟩ = ⟨Nat.ofDigitChars 10 ds a, 0, false⟩ := by
  induction ds generalizing a with
  | nil => simp
  | cons d ds ih =>
    have bound : a * 10 + digitValue d ≤ maxSignificand := by
      rw [Nat.ofDigitChars_cons, Nat.ofDigitChars_eq_ofDigitChars_zero] at h
      have pos : 1 ≤ 10 ^ ds.length := Nat.one_le_pow _ _ (by decide)
      have grow := Nat.mul_le_mul_right (10 * a + (d.toNat - '0'.toNat)) pos
      simp only [digitValue]
      omega
    have step : Accumulator.addWhole ⟨a, 0, false⟩ d = ⟨a * 10 + digitValue d, 0, false⟩ := by
      simp [Accumulator.addWhole, Nat.not_lt.mpr bound]
    have next : a * 10 + digitValue d = 10 * a + (d.toNat - '0'.toNat) := by
      simp only [digitValue]; omega
    rw [List.foldl_cons, step, next, Nat.ofDigitChars_cons]
    apply ih
    rwa [Nat.ofDigitChars_cons] at h

theorem head?_toDigits_ne_zero (n : Nat) (h : 0 < n) : (Nat.toDigits 10 n).head? ≠ some '0' := by
  induction n using Nat.strongRecOn with
  | _ n ih =>
    rw [Nat.toDigits_eq_if (by decide)]
    split
    · simp; omega
    · have first := ih (n / 10) (by omega) (by omega)
      obtain ⟨d, ds, hd⟩ := List.exists_cons_of_ne_nil (Nat.toDigits_ne_nil (n := n / 10) (b := 10))
      rw [hd] at first ⊢
      exact first

theorem no_leading_zero (n : Nat) :
    (decide ((Nat.toDigits 10 n).head? = some '0') && decide (1 < (Nat.toDigits 10 n).length)) =
      false := by
  by_cases h : n < 10
  · simp [Nat.toDigits_of_lt_base h]
  · simp [head?_toDigits_ne_zero n (by omega)]

theorem digits_toDigits (n : Nat) {rest : List Char} (h : Delimited rest) :
    digits (Nat.toDigits 10 n ++ rest) = (Nat.toDigits 10 n, rest) := by
  have all : ∀ c ∈ Nat.toDigits 10 n, c.isDigit = true := fun c hc =>
    Nat.isDigit_of_mem_toDigits (by decide) (by decide) hc
  have stop : rest.takeWhile Char.isDigit = [] ∧ rest.dropWhile Char.isDigit = rest := by
    cases rest with
    | nil => simp
    | cons c cs =>
      have hc : c.isDigit = false := by
        rcases h with rfl | rfl | rfl | h
        · rfl
        · rfl
        · rfl
        · simp only [Json.isBlank, Bool.or_eq_true, decide_eq_true_eq] at h
          rcases h with ((rfl | rfl) | rfl) | rfl <;> rfl
      simp [hc]
  rw [digits, List.takeWhile_append_of_pos all, List.dropWhile_append_of_pos all, stop.1, stop.2,
    List.append_nil]

theorem readFraction?_delimited {rest : List Char} (h : Delimited rest) :
    readFraction? rest = some ([], rest) := by
  unfold readFraction?
  split
  · simp [Delimited, Json.isBlank] at h
  · rfl

theorem readExponent?_delimited {rest : List Char} (h : Delimited rest) :
    readExponent? rest = some (none, rest) := by
  cases rest with
  | nil => rfl
  | cons c cs =>
    have hc : ¬ (c = 'e' ∨ c = 'E') := by
      rintro (rfl | rfl) <;> simp [Delimited, Json.isBlank] at h
    simp [readExponent?, hc]

theorem read?_toDigits (n : Nat) (hn : n < 0x10000000000000000) {rest : List Char} (h : Delimited rest) :
    read? (Nat.toDigits 10 n ++ rest) = some (.integer n, rest) := by
  have sign : ∀ cs, Nat.toDigits 10 n ++ rest ≠ '-' :: cs := by
    intro cs eq
    have : ∃ d ds, Nat.toDigits 10 n = d :: ds := List.exists_cons_of_ne_nil Nat.toDigits_ne_nil
    obtain ⟨d, ds, hd⟩ := this
    have digit := Nat.isDigit_of_mem_toDigits (b := 10) (n := n) (c := d) (by decide) (by decide)
      (by simp [hd])
    rw [hd] at eq
    simp only [List.cons_append, List.cons.injEq] at eq
    rw [eq.1] at digit
    exact absurd digit (by decide)
  have parts : readParts? (Nat.toDigits 10 n ++ rest) =
      some (⟨false, Nat.toDigits 10 n, [], none⟩, rest) := by
    rw [readParts?]
    · simp [digits_toDigits n h, no_leading_zero, readFraction?_delimited h,
        readExponent?_delimited h]
    · exact sign
  have value := foldl_addWhole (Nat.toDigits 10 n) 0
    (by rw [Nat.ofDigitChars_toDigits (by decide) (by decide), maxSignificand]; omega)
  rw [Nat.ofDigitChars_toDigits (by decide) (by decide)] at value
  have whole : ofParts? ⟨false, Nat.toDigits 10 n, [], none⟩ = some (.integer n) := by
    simp [ofParts?, Parts.isInteger, value]
  simp [read?, parts, whole]

end Ambient.JsonNumber

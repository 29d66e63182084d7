import Ambient.Proofs.Lexeme.Session
import Ambient.Proofs.Text.LineEnds

namespace Ambient

/-- The bytes of some characters in UTF-8. -/
def encoded (cs : List Char) : List UInt8 := cs.flatMap String.utf8EncodeChar

/-- The bytes of a text. -/
def bytes (text : String) : List UInt8 := text.toByteArray.data.toList

/-- The byte that ends a line. -/
def lineFeed : UInt8 := 10

/-- A line of a text starts at `start` and reaches up to `offset` at least. -/
structure SameLine (text : String) (start offset : Nat) : Prop where
  le : start ≤ offset
  starts : start = 0 ∨ ∃ n, start = n + 1 ∧ (bytes text)[n]? = some lineFeed
  unbroken : ∀ i, start ≤ i → i < offset → (bytes text)[i]? ≠ some lineFeed

/-- Line and column are those of an offset: they count the line feeds in front of it, and the bytes
from the start of its line on. -/
structure LineColumn.Counts (p : LineColumn) (text : String) (offset : Nat) : Prop where
  line : p.line = ((bytes text).take offset).count lineFeed
  column : ∃ start, SameLine text start offset ∧ p.column = offset - start

theorem encoded_append (cs ds : List Char) : encoded (cs ++ ds) = encoded cs ++ encoded ds :=
  List.flatMap_append

theorem encoded_cons (c : Char) (cs : List Char) :
    encoded (c :: cs) = String.utf8EncodeChar c ++ encoded cs := List.flatMap_cons

theorem length_encoded (cs : List Char) : (encoded cs).length = byteLength cs := by
  induction cs with
  | nil => rfl
  | cons c cs ih =>
    rw [encoded_cons, List.length_append, String.length_utf8EncodeChar, ih, byteLength_cons]

theorem bytes_eq (text : String) : bytes text = encoded text.toList := by
  rw [bytes, ← String.utf8Encode_toList, List.utf8Encode, List.data_toByteArray, encoded]

/-- The bytes of characters that take more than one start at 128. -/
theorem lineFeed_ne {n : Nat} (low : 128 ≤ n) (high : n < 256) : lineFeed ≠ UInt8.ofNat n := by
  intro h
  have eq : 10 = n % 256 := by simpa [lineFeed] using congrArg UInt8.toNat h
  omega

/-- A line feed is one byte, and no other character has that byte in it. -/
theorem lineFeed_mem_iff (c : Char) : lineFeed ∈ String.utf8EncodeChar c ↔ c = '\n' := by
  constructor
  · intro mem
    unfold String.utf8EncodeChar at mem
    extract_lets v at mem
    split_ifs at mem with one two three
    · have eq : 10 = v % 256 := by
        simpa [lineFeed] using congrArg UInt8.toNat (List.mem_singleton.mp mem)
      apply Char.ext
      apply UInt32.toNat_inj.mp
      change v = 10
      omega
    · simp only [List.mem_cons, List.not_mem_nil, or_false] at mem
      rcases mem with h | h
      · exact absurd h (lineFeed_ne (by omega) (by omega))
      · exact absurd h (lineFeed_ne (by omega) (by omega))
    · simp only [List.mem_cons, List.not_mem_nil, or_false] at mem
      rcases mem with h | h | h
      · exact absurd h (lineFeed_ne (by omega) (by omega))
      · exact absurd h (lineFeed_ne (by omega) (by omega))
      · exact absurd h (lineFeed_ne (by omega) (by omega))
    · simp only [List.mem_cons, List.not_mem_nil, or_false] at mem
      rcases mem with h | h | h | h
      · exact absurd h (lineFeed_ne (by omega) (by omega))
      · exact absurd h (lineFeed_ne (by omega) (by omega))
      · exact absurd h (lineFeed_ne (by omega) (by omega))
      · exact absurd h (lineFeed_ne (by omega) (by omega))
  · rintro rfl
    decide

theorem lineFeed_mem_encoded (cs : List Char) : lineFeed ∈ encoded cs ↔ '\n' ∈ cs := by
  induction cs with
  | nil => simp [encoded]
  | cons c cs ih =>
    rw [encoded_cons, List.mem_append, lineFeed_mem_iff, ih, List.mem_cons, eq_comm]

namespace LineMap

/-- There is a start of a line behind each line feed. -/
theorem length_startsAfter (k : Nat) (cs : List Char) :
    (startsAfter k cs).length = (encoded cs).count lineFeed := by
  induction cs generalizing k with
  | nil => rfl
  | cons c cs ih =>
    rw [encoded_cons, List.count_append]
    by_cases lf : c = '\n'
    · subst lf
      rw [startsAfter_newline, List.length_cons, ih, Nat.add_comm]
      rfl
    · have none : (String.utf8EncodeChar c).count lineFeed = 0 := by
        rw [List.count_eq_zero, lineFeed_mem_iff]
        exact lf
      rw [startsAfter_cons lf, ih, none, Nat.zero_add]

/-- The last start of a line cuts the line off that is not at its end. -/
theorem getLastD_startsAfter (cs : List Char) : ∃ lines line, cs = lines ++ line ∧ '\n' ∉ line ∧
    (startsAfter 0 cs).getLastD 0 = byteLength lines ∧
    (lines = [] ∨ ∃ init, lines = init ++ ['\n']) := by
  induction cs using List.reverseRecOn with
  | nil => exact ⟨[], [], rfl, List.not_mem_nil, rfl, .inl rfl⟩
  | append_singleton cs c ih =>
    by_cases lf : c = '\n'
    · subst lf
      refine ⟨cs ++ ['\n'], [], by simp, List.not_mem_nil, ?_, .inr ⟨cs, rfl⟩⟩
      rw [startsAfter_append, startsAfter_newline, byteLength_append]
      simp [startsAfter, byteLength]
      rfl
    · obtain ⟨lines, line, split, none, last, starts⟩ := ih
      refine ⟨lines, line ++ [c], by rw [split, List.append_assoc], ?_, ?_, starts⟩
      · simpa [none] using Ne.symm lf
      · rw [startsAfter_append, startsAfter_cons lf, startsAfter, List.append_nil, last]

/-- Line and column of a place between characters count what stands before it. -/
theorem counts_locate {text : String} {before rest : List Char} (h : text.toList = before ++ rest) :
    ((ofText text).locate (byteLength before)).Counts text (byteLength before) := by
  have split : bytes text = encoded before ++ encoded rest := by
    rw [bytes_eq, h, encoded_append]
  rw [locate_of_append h]
  constructor
  · rw [split, List.take_left' (length_encoded before), length_startsAfter]
  · obtain ⟨lines, line, rfl, none, last, starts⟩ := getLastD_startsAfter before
    refine ⟨byteLength lines, ⟨?_, ?_, ?_⟩, ?_⟩
    · rw [byteLength_append]
      exact Nat.le_add_right _ _
    · rcases starts with rfl | ⟨init, rfl⟩
      · exact .inl rfl
      · refine .inr ⟨byteLength init, byteLength_append _ _, ?_⟩
        have lf : encoded ['\n'] = [lineFeed] := rfl
        rw [split, encoded_append, encoded_append, lf, ← length_encoded, List.append_assoc,
          List.append_assoc, List.getElem?_append_right (Nat.le_refl _), Nat.sub_self]
        rfl
    · intro i from_start in_line found
      rw [byteLength_append, ← length_encoded, ← length_encoded] at in_line
      rw [← length_encoded] at from_start
      rw [split, encoded_append, List.append_assoc, List.getElem?_append_right from_start,
        List.getElem?_append_left (by omega)] at found
      exact none ((lineFeed_mem_encoded line).mp (List.mem_of_getElem? found))
    · rw [last]

end LineMap

/-- Only the start of a text has neither lines nor columns in front of it. -/
theorem LineColumn.Counts.zero_iff {p : LineColumn} {text : String} {offset : Nat}
    (h : p.Counts text offset) : p = ⟨0, 0⟩ ↔ offset = 0 := by
  obtain ⟨start, same, column⟩ := h.column
  have line := h.line
  constructor
  · rintro rfl
    have none : lineFeed ∉ (bytes text).take offset := List.count_eq_zero.mp line.symm
    rcases same.starts with rfl | ⟨n, rfl, found⟩
    · exact column.symm
    · have before : n < offset := same.le
      have mem : lineFeed ∈ (bytes text).take offset := by
        apply List.mem_of_getElem? (i := n)
        rw [List.getElem?_take_of_lt before, found]
      exact absurd mem none
  · rintro rfl
    rw [List.take_zero] at line
    rw [Nat.zero_sub] at column
    cases p
    simp_all

/-- A token starts between two characters of its text. -/
theorem exists_split_of_mem_lexemes {text : String} {t : Lexeme} (h : t ∈ lexemes text) :
    ∃ before rest, text.toList = before ++ rest ∧ t.start = byteLength before := by
  have place (c : Cursor) (of : c.Of text) :
      ∃ before rest, text.toList = before ++ rest ∧ c.scan.1.start = byteLength before := by
    obtain ⟨before, eq, offset⟩ := of
    obtain ⟨gap, cuts⟩ := c.cuts_scan
    refine ⟨before ++ gap, c.scan.1.text.toList ++ c.scan.2.rest, ?_, ?_⟩
    · rw [eq, cuts.rest_eq, List.append_assoc]
    · rw [cuts.start_eq, offset, byteLength_append]
  have all (c : Cursor) (ts : List Lexeme) (scans : c.Scans ts) (of : c.Of text) (mem : t ∈ ts) :
      ∃ before rest, text.toList = before ++ rest ∧ t.start = byteLength before := by
    induction scans with
    | ending last =>
      obtain rfl := List.mem_singleton.mp mem
      exact place _ of
    | cons more others ih =>
      rcases List.mem_cons.mp mem with rfl | mem
      · exact place _ of
      · exact ih of.scan mem
  exact all ⟨0, text.toList⟩ _ (Cursor.scans_iff.mpr rfl) ⟨[], rfl, rfl⟩ h

end Ambient

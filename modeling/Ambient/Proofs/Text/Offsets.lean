import Mathlib.Data.List.Basic
import Ambient.Proofs.Text.Lines

namespace Ambient

section

variable {α : Type} {p : α → Bool} {xs : List α} {n : Nat}

/-- Halves a range of elements, `size` from the one at `base` on, until one is left: the last one that
satisfies `p` if any does. -/
def bisect (p : α → Bool) (xs : List α) (base size : Nat) : Nat :=
  if 1 < size then
    let middle := base + size / 2
    bisect p xs (if xs[middle]?.any p then middle else base) (size - size / 2)
  else base
termination_by size
decreasing_by omega

/-- Where the elements end that satisfy `p`, in a list in which they come first. -/
def partitionPoint (p : α → Bool) (xs : List α) : Nat :=
  let last := bisect p xs 0 xs.length
  if xs[last]?.any p then last + 1 else last

/-- Halving the range keeps the end of the first elements in it, or right behind it. -/
theorem bisect_le (first : ∀ i, xs[i]?.any p = true ↔ i < n) {base size : Nat} (base_le : base ≤ n)
    (le : n ≤ base + size) : bisect p xs base size ≤ n ∧ n ≤ bisect p xs base size + 1 := by
  fun_induction bisect p xs base size with
  | case1 base size more middle ih =>
    have low := first middle
    apply ih
    · split
      · exact (low.mp ‹_›).le
      · exact base_le
    · split
      · omega
      · have high := mt low.mpr ‹_›
        omega
  | case2 base size one => omega

theorem partitionPoint_eq (le : n ≤ xs.length)
    (first : ∀ i x, xs[i]? = some x → (p x = true ↔ i < n)) : partitionPoint p xs = n := by
  have any (i : Nat) : xs[i]?.any p = true ↔ i < n := by
    cases found : xs[i]? with
    | none =>
      have behind := List.getElem?_eq_none_iff.mp found
      exact iff_of_false Bool.false_ne_true (by omega)
    | some x => exact first i x found
  obtain ⟨last_le, le_last⟩ := bisect_le any (Nat.zero_le n) (Nat.le_trans le (Nat.le_add_left _ 0))
  have last := any (bisect p xs 0 xs.length)
  unfold partitionPoint
  dsimp only
  split
  · exact Nat.le_antisymm (last.mp ‹_›) le_last
  · exact Nat.le_antisymm last_le (Nat.le_of_not_lt (mt last.mpr ‹_›))

end

/-- A place comes before another one in reading order. -/
def LineColumn.Before (p q : LineColumn) : Prop :=
  p.line < q.line ∨ p.line = q.line ∧ p.column < q.column

/-- A place is that of an offset: its line is one of the text, and its column leads from the start of
that line to the offset. -/
structure LineColumn.Locates (p : LineColumn) (text : String) (offset : Nat) : Prop where
  line_eq : p.line = ((bytes text).take offset).count lineFeed
  line_lt : p.line < (LineMap.ofText text).lineCount
  line_le : p.line ≤ offset
  column : ∃ start, (LineMap.ofText text).starts[p.line]? = some start ∧ start + p.column = offset
  /-- The lines that start at the offset or in front of it are those up to the one of the place. -/
  reached_iff : ∀ i start, (LineMap.ofText text).starts[i]? = some start →
    (start ≤ offset ↔ i ≤ p.line)
  reached_count : (LineMap.ofText text).starts.countP (· ≤ offset) = p.line + 1

namespace LineMap

/-- A line starts behind the byte of each line feed. -/
theorem startsAfter_eq_idxsOf (k : Nat) (cs : List Char) :
    startsAfter k cs = (encoded cs).idxsOf lineFeed (k + 1) := by
  induction cs generalizing k with
  | nil => rfl
  | cons c cs ih =>
    rw [encoded_cons, List.idxsOf_append, String.length_utf8EncodeChar]
    by_cases lf : c = '\n'
    · subst lf
      have one : (String.utf8EncodeChar '\n').idxsOf lineFeed (k + 1) = [k + 1] := rfl
      rw [startsAfter_newline, ih, one]
      rfl
    · have none : (String.utf8EncodeChar c).idxsOf lineFeed (k + 1) = [] := by
        rw [List.idxsOf_eq_nil_iff]
        intro b mem
        apply beq_false_of_ne
        rintro rfl
        exact lf ((lineFeed_mem_iff c).mp mem)
      rw [startsAfter_cons lf, ih, none, List.nil_append, Nat.add_right_comm]

theorem starts_ofText (text : String) :
    (ofText text).starts = 0 :: (bytes text).idxsOf lineFeed 1 := by
  rw [ofText, startsAfter_eq_idxsOf, bytes_eq]

theorem length_bytes (text : String) : (bytes text).length = text.utf8ByteSize := rfl

/-- Where the lines start that reach an offset of a text. -/
def reached (text : String) (offset : Nat) : List Nat :=
  0 :: ((bytes text).take offset).idxsOf lineFeed 1

section

variable {text : String} {offset : Nat}

theorem length_reached (text : String) (offset : Nat) : (reached text offset).length =
    ((bytes text).take offset).count lineFeed + 1 := by
  rw [reached, List.length_cons, List.length_idxsOf]

theorem le_of_mem_reached {start : Nat} (h : start ∈ reached text offset) : start ≤ offset := by
  obtain rfl | mem := List.mem_cons.mp h
  · exact Nat.zero_le offset
  · have lt := List.lt_add_of_mem_idxsOf _ mem
    have short := List.length_take_le offset (bytes text)
    omega

/-- All lines of a text reach its end. -/
theorem starts_eq_reached : (ofText text).starts = reached text text.utf8ByteSize := by
  rw [starts_ofText, reached, List.take_of_length_le (Nat.le_of_eq (length_bytes text))]

/-- The lines of a text are those that reach an offset, and those that start behind it. -/
theorem starts_eq_reached_append (inside : offset ≤ text.utf8ByteSize) :
    ∃ behind, (ofText text).starts = reached text offset ++ behind ∧ ∀ start ∈ behind, offset < start := by
  have length : ((bytes text).take offset).length = offset := by
    rw [List.length_take, length_bytes, Nat.min_eq_left inside]
  refine ⟨((bytes text).drop offset).idxsOf lineFeed (1 + offset), ?_, ?_⟩
  · have whole : ((bytes text).take offset ++ (bytes text).drop offset).idxsOf lineFeed 1 = _ :=
      List.idxsOf_append
    rw [List.take_append_drop, length] at whole
    rw [starts_ofText, whole, reached, List.cons_append]
  · intro start mem
    have ge := List.ge_of_mem_idxsOf _ mem
    omega

theorem filter_starts (inside : offset ≤ text.utf8ByteSize) :
    (ofText text).starts.filter (· ≤ offset) = reached text offset := by
  obtain ⟨behind, split, later⟩ := starts_eq_reached_append inside
  rw [split, List.filter_append, List.filter_eq_self.mpr, List.filter_eq_nil_iff.mpr, List.append_nil]
  · intro start mem
    simpa using later start mem
  · intro start mem
    simpa using le_of_mem_reached mem

/-- An offset lies in the last line that reaches it. -/
theorem locate_eq (inside : offset ≤ text.utf8ByteSize) : (ofText text).locate offset =
    ⟨((bytes text).take offset).count lineFeed, offset - (reached text offset).getLastD 0⟩ := by
  have clamp : min offset (ofText text).size = offset := Nat.min_eq_left inside
  rw [locate, clamp]
  simp only [filter_starts inside, length_reached, Nat.add_sub_cancel]

theorem getLast?_reached (text : String) (offset : Nat) :
    (reached text offset).getLast? = some ((reached text offset).getLastD 0) := by
  rw [List.getLastD_eq_getLast?, reached, List.getLast?_cons]
  rfl

theorem getLastD_reached_le (text : String) (offset : Nat) :
    (reached text offset).getLastD 0 ≤ offset :=
  le_of_mem_reached (List.mem_of_getLast? (getLast?_reached text offset))

theorem locates_locate (inside : offset ≤ text.utf8ByteSize) :
    ((ofText text).locate offset).Locates text offset := by
  obtain ⟨behind, split, later⟩ := starts_eq_reached_append inside
  have length := length_reached text offset
  have line : ((ofText text).locate offset).line = ((bytes text).take offset).count lineFeed :=
    congrArg LineColumn.line (locate_eq inside)
  have column : ((ofText text).locate offset).column = offset - (reached text offset).getLastD 0 :=
    congrArg LineColumn.column (locate_eq inside)
  rw [← line] at length
  constructor
  case line_eq => exact line
  case line_lt =>
    rw [lineCount, split, List.length_append, length]
    exact Nat.lt_add_right _ (Nat.lt_succ_self _)
  case line_le =>
    rw [line]
    exact List.count_le_length.trans (List.length_take_le offset (bytes text))
  case column =>
    have last := getLast?_reached text offset
    rw [List.getLast?_eq_getElem?, length, Nat.add_sub_cancel] at last
    refine ⟨(reached text offset).getLastD 0, ?_, ?_⟩
    · rw [split, List.getElem?_append_left (by omega), last]
    · rw [column]
      exact Nat.add_sub_cancel' (getLastD_reached_le text offset)
  case reached_iff =>
    intro i start found
    rw [split] at found
    by_cases early : i < (reached text offset).length
    · rw [List.getElem?_append_left early] at found
      have le := le_of_mem_reached (List.mem_of_getElem? found)
      exact iff_of_true le (by omega)
    · rw [List.getElem?_append_right (by omega)] at found
      have lt := later start (List.mem_of_getElem? found)
      exact iff_of_false (by omega) (by omega)
  case reached_count => rw [List.countP_eq_length_filter, filter_starts inside, length]

theorem reached_prefix {later : Nat} (le : offset ≤ later) :
    reached text offset <+: reached text later := by
  have front := List.take_prefix offset ((bytes text).take later)
  rw [List.take_take, Nat.min_eq_left le] at front
  obtain ⟨between, split⟩ := front
  refine ⟨between.idxsOf lineFeed (1 + ((bytes text).take offset).length), ?_⟩
  rw [reached, reached, ← split, List.idxsOf_append, List.cons_append]

/-- A later offset has a later place: in the same line it is further from its start. -/
theorem before_locate {later : Nat} (lt : offset < later) (inside : later ≤ text.utf8ByteSize) :
    ((ofText text).locate offset).Before ((ofText text).locate later) := by
  have more : reached text offset <+: reached text later := reached_prefix lt.le
  have lengths := more.length_le
  rw [length_reached, length_reached] at lengths
  rw [locate_eq (lt.le.trans inside), locate_eq inside]
  rcases (Nat.le_of_succ_le_succ lengths).lt_or_eq with fewer | same
  · exact .inl fewer
  · have equal := more.eq_of_length (by rw [length_reached, length_reached, same])
    have start_le := getLastD_reached_le text offset
    refine .inr ⟨same, ?_⟩
    dsimp only
    rw [← equal]
    omega

end

theorem locate_min (m : LineMap) (offset : Nat) : m.locate (min offset m.size) = m.locate offset := by
  simp only [locate, Nat.min_assoc, Nat.min_self]

theorem pairwise_starts (text : String) : (ofText text).starts.Pairwise (· < ·) := by
  rw [starts_ofText, List.pairwise_cons]
  exact ⟨fun start mem => List.ge_of_mem_idxsOf start mem, List.pairwise_idxsOf⟩

theorem partitionPoint_starts (text : String) (offset : Nat) :
    partitionPoint (· ≤ min offset text.utf8ByteSize) (ofText text).starts =
      ((ofText text).locate offset).line + 1 := by
  have place : ((ofText text).locate (min offset text.utf8ByteSize)).Locates text _ :=
    locates_locate (Nat.min_le_right offset _)
  rw [← locate_min, show (ofText text).size = text.utf8ByteSize from rfl]
  apply partitionPoint_eq place.line_lt
  intro i start found
  rw [decide_eq_true_iff, place.reached_iff i start found, Nat.lt_succ_iff]

/-- The starts of lines are in order and inside the text, every offset has the place that belongs to
it, where one behind the text counts as its end, and the places of offsets are in their order. No number
is larger than the size of the text, and the line is what bisection finds. -/
theorem locate_exact (text : String) :
    (ofText text).starts.Pairwise (· < ·) ∧
    (∀ start ∈ (ofText text).starts, start ≤ text.utf8ByteSize) ∧
    (∀ offset, ((ofText text).locate offset).Locates text (min offset text.utf8ByteSize) ∧
      partitionPoint (· ≤ min offset text.utf8ByteSize) (ofText text).starts =
        ((ofText text).locate offset).line + 1) ∧
    ∀ p q, p < q → q ≤ text.utf8ByteSize →
      ((ofText text).locate p).Before ((ofText text).locate q) := by
  refine ⟨pairwise_starts text, ?_, ?_, ?_⟩
  · intro start mem
    rw [starts_eq_reached] at mem
    exact le_of_mem_reached mem
  · intro offset
    refine ⟨?_, partitionPoint_starts text offset⟩
    rw [← locate_min]
    exact locates_locate (Nat.min_le_right _ _)
  · intro p q lt inside
    exact before_locate lt inside

/-- An empty line stands between the ends of lines, a carriage return in front of the first of them. -/
theorem locate_exact_emptyLine :
    let lines := ofText "é\r\n\nb"
    lines.starts = [0, 4, 5] ∧ (lines.locate 1).Locates "é\r\n\nb" 1 ∧
      (lines.locate 3).Before (lines.locate 4) ∧ (lines.locate 9).Locates "é\r\n\nb" 6 := by
  intro lines
  obtain ⟨-, -, places, ordered⟩ := locate_exact "é\r\n\nb"
  refine ⟨?_, (places 1).1, ?_, (places 9).1⟩
  · decide
  · exact ordered 3 4 (by decide) (by decide)

end LineMap

end Ambient

import Ambient.Proofs.Lexeme.Pieces

namespace Ambient

/-- The characters behind a place are what a text has behind its offset. -/
def Cursor.Of (c : Cursor) (text : String) : Prop :=
  ∃ before, text.toList = before ++ c.rest ∧ c.offset = byteLength before

theorem Cursor.Of.scan {c : Cursor} {text : String} (h : c.Of text) : c.scan.2.Of text := by
  obtain ⟨before, eq, offset⟩ := h
  obtain ⟨gap, cuts⟩ := c.cuts_scan
  refine ⟨before ++ (gap ++ c.scan.1.text.toList), ?_, ?_⟩
  · rw [eq, cuts.rest_eq]
    simp only [List.append_assoc]
  · rw [Cursor.offset_scan, Lexeme.stop, cuts.start_eq, offset, byteLength_append, byteLength_append,
      ← Nat.add_assoc, ← Cursor.utf8ByteSize_ofList c.scan.1.text.toList, String.ofList_toList]

/-- A place with nothing behind it is the end of the text. -/
theorem Cursor.Of.offset_eq {c : Cursor} {text : String} (h : c.Of text) (none_left : c.rest = []) :
    c.offset = text.utf8ByteSize := by
  obtain ⟨before, eq, offset⟩ := h
  rw [none_left, List.append_nil] at eq
  rw [offset, ← eq, ← Cursor.utf8ByteSize_ofList, String.ofList_toList]

/-- A range is a part of a text: its ends are between characters of the text, and in order. -/
structure TextRange.Within (r : TextRange) (text : String) : Prop where
  start_le : r.start ≤ r.stop
  stop_le : r.stop ≤ text.utf8ByteSize
  start_valid : (⟨r.start⟩ : String.Pos.Raw).IsValid text
  stop_valid : (⟨r.stop⟩ : String.Pos.Raw).IsValid text

theorem TextRange.within_of_append {text : String} {before piece behind : List Char}
    (h : text.toList = before ++ (piece ++ behind)) :
    (⟨byteLength before, byteLength before + byteLength piece⟩ : TextRange).Within text where
  start_le := Nat.le_add_right _ _
  stop_le := by
    rw [← String.ofList_toList (s := text), Cursor.utf8ByteSize_ofList, h, byteLength_append,
      byteLength_append]
    exact Nat.add_le_add_left (Nat.le_add_right _ _) _
  start_valid := isValid_byteLength h
  stop_valid := by
    rw [← byteLength_append]
    exact isValid_byteLength (h.trans (List.append_assoc _ _ _).symm)

def Comment.range (c : Comment) : TextRange := ⟨c.start, c.start + c.text.utf8ByteSize⟩

namespace Scanner

/-- The bytes from the start of the current token up to where the next one is looked for. -/
def range (s : Scanner) : TextRange := ⟨s.current.start, s.cursor.offset⟩

/-- What a scanner says of its token is there in its text. -/
structure Defined (s : Scanner) (text : String) : Prop where
  within : s.range.Within text
  text_eq : s.range.slice text = s.current.text
  value : s.current.kind = .stringLiteral → ∃ quote, (quote = '"' ∨ quote = '\'') ∧
    s.current.text.toList =
      quote :: (s.current.value.toList ++ if s.current.error.isSome then [] else [quote])
  comment : ∀ c ∈ s.current.comment, c.range.Within text ∧ c.range.slice text = c.text ∧
    c.range.stop ≤ s.current.start

theorem cursor_scan (s : Scanner) : s.scan.cursor = s.cursor.scan.2 := rfl

theorem current_scan (s : Scanner) : s.scan.current = s.cursor.scan.1 := rfl

/-- A token that was scanned is defined. -/
theorem defined_scan {s : Scanner} {text : String} (h : s.cursor.Of text) :
    s.scan.Defined text := by
  obtain ⟨before, eq, offset⟩ := h
  obtain ⟨gap, cuts⟩ := s.cursor.cuts_scan
  let token := s.cursor.scan.1
  have split : text.toList = before ++ gap ++ (token.text.toList ++ s.cursor.scan.2.rest) := by
    rw [eq, cuts.rest_eq, List.append_assoc]
  have start : token.start = byteLength (before ++ gap) := by
    rw [byteLength_append, ← offset]
    exact cuts.start_eq
  have range : s.scan.range = ⟨byteLength (before ++ gap),
      byteLength (before ++ gap) + byteLength token.text.toList⟩ := by
    rw [Scanner.range, cursor_scan, Cursor.offset_scan, Lexeme.stop, ← start,
      ← Cursor.utf8ByteSize_ofList token.text.toList, String.ofList_toList]
    rfl
  refine ⟨range ▸ TextRange.within_of_append split, ?_, Cursor.value_scan, ?_⟩
  · rw [range, slice_eq split, String.ofList_toList]
    rfl
  · intro c mem
    obtain ⟨front, behind, cut, at_start⟩ := cuts.comment c mem
    have split' : text.toList = before ++ front ++
        (c.text.toList ++ (behind ++ (token.text.toList ++ s.cursor.scan.2.rest))) := by
      rw [split, cut]
      simp only [List.append_assoc]
    have range : c.range = ⟨byteLength (before ++ front),
        byteLength (before ++ front) + byteLength c.text.toList⟩ := by
      rw [Comment.range, at_start, offset, ← byteLength_append,
        ← Cursor.utf8ByteSize_ofList c.text.toList, String.ofList_toList]
    refine ⟨range ▸ TextRange.within_of_append split', ?_, ?_⟩
    · rw [range, slice_eq split', String.ofList_toList]
    · rw [range]
      change _ ≤ token.start
      rw [start, cut]
      simp only [byteLength_append]
      omega

/-- What can be done with a scanner. -/
inductive Call where
  | scan
  | save
  /-- Sets the scanner back to the state that was saved as the `n`th one, if there is one. -/
  | restore (n : Nat)

/-- A scanner and the states that were saved from it. -/
structure Session where
  scanner : Scanner
  saved : List Scanner := []

def Session.call (s : Session) : Call → Session
  | .scan => { s with scanner := s.scanner.scan }
  | .save => { s with saved := s.saved ++ [s.scanner] }
  | .restore n => { s with scanner := s.saved[n]?.getD s.scanner }

/-- The scanner of a text behind some calls. -/
def behind (text : String) (calls : List Call) : Scanner :=
  (calls.foldl Session.call ⟨ofText text, []⟩).scanner

/-- A scanner that stands at a place of its text, and has read what stands there. -/
structure Sound (s : Scanner) (text : String) : Prop where
  place : s.cursor.Of text
  defined : s.Defined text

theorem sound_ofText (text : String) : (ofText text).Sound text where
  place := ⟨[], rfl, rfl⟩
  defined := by
    have start : text.toList = [] ++ ([] ++ text.toList) := rfl
    exact ⟨TextRange.within_of_append start, slice_eq start, nofun, nofun⟩

theorem Sound.scan {s : Scanner} {text : String} (h : s.Sound text) : s.scan.Sound text where
  place := h.place.scan
  defined := defined_scan h.place

/-- All scanners of a session stand at places of the text. -/
structure Session.Sound (s : Session) (text : String) : Prop where
  scanner : s.scanner.Sound text
  saved : ∀ t ∈ s.saved, t.Sound text

theorem Session.Sound.call {s : Session} {text : String} (h : s.Sound text) (c : Call) :
    (s.call c).Sound text := by
  cases c with
  | scan => exact ⟨h.scanner.scan, h.saved⟩
  | save =>
    refine ⟨h.scanner, List.forall_mem_append.mpr ⟨h.saved, ?_⟩⟩
    exact List.forall_mem_singleton.mpr h.scanner
  | restore n =>
    refine ⟨?_, h.saved⟩
    change (s.saved[n]?.getD s.scanner).Sound text
    cases found : s.saved[n]? with
    | none => exact h.scanner
    | some t => exact h.saved t (List.mem_of_getElem? found)

theorem Session.Sound.calls {s : Session} {text : String} (h : s.Sound text) (calls : List Call) :
    (calls.foldl Session.call s).Sound text := by
  induction calls generalizing s with
  | nil => exact h
  | cons c calls ih => exact ih (h.call c)

theorem sound_behind (text : String) (calls : List Call) : (behind text calls).Sound text :=
  have start : Session.Sound ⟨ofText text, []⟩ text := ⟨sound_ofText text, List.forall_mem_nil _⟩
  (start.calls calls).scanner

/-- The bytes between the current token and the next one. -/
def gap (s : Scanner) (text : String) : String :=
  (⟨s.cursor.offset, s.scan.current.start⟩ : TextRange).slice text

/-- What the next scan goes over: the gap in front of the token, and the token. -/
def passes (s : Scanner) (text : String) : List Char :=
  (s.gap text).toList ++ s.scan.current.text.toList

/-- How the next token follows: not in front of where the last one ends, behind trivia, and with text
unless the text has ended or stops in a block comment without end. The end of the text stands behind
all of its bytes. -/
structure Tiles (s : Scanner) (text : String) : Prop where
  le : s.cursor.offset ≤ s.scan.current.start
  gap : s.scan.current.Behind (s.gap text).toList (dropBytes s.scan.current.start text.toList)
  takes : s.scan.current.kind ≠ .endOfFileToken →
    s.scan.current.text ≠ "" ∨ s.scan.current.Unclosed
  ends : s.scan.current.kind = .endOfFileToken →
    s.scan.current.text = "" ∧ s.scan.current.start = text.utf8ByteSize

/-- The gap is what the next token is cut off behind. -/
theorem Sound.cuts {s : Scanner} {text : String} (h : s.Sound text) :
    s.cursor.Cuts (s.gap text).toList ∧ dropBytes s.scan.current.start text.toList =
      s.scan.current.text.toList ++ s.scan.cursor.rest := by
  obtain ⟨before, eq, offset⟩ := h.place
  obtain ⟨gap, cuts⟩ := s.cursor.cuts_scan
  rw [cuts.rest_eq] at eq
  have found : (s.gap text).toList = gap := by
    rw [Scanner.gap, current_scan, cuts.start_eq, offset, slice_eq eq, String.toList_ofList]
  refine ⟨found ▸ cuts, ?_⟩
  rw [current_scan, cuts.start_eq, offset, eq, ← List.append_assoc, ← byteLength_append,
    dropBytes_byteLength]
  rfl

/-- A scan goes over what stands in front of the place to which it comes. -/
theorem Sound.passes_append {s : Scanner} {text : String} (h : s.Sound text) :
    s.passes text ++ s.scan.cursor.rest = s.cursor.rest := by
  rw [passes, List.append_assoc]
  exact h.cuts.1.rest_eq.symm

theorem Sound.tiles {s : Scanner} {text : String} (h : s.Sound text) : s.Tiles text where
  le := s.cursor.le_start_scan
  gap := by
    obtain ⟨cuts, rest⟩ := h.cuts
    rw [rest]
    exact cuts.behind
  takes more := by
    by_cases none : s.scan.current.text = ""
    · exact .inr (Cursor.unclosed_scan more none)
    · exact .inl none
  ends last := by
    obtain ⟨no_text, -, none_left⟩ := Cursor.scan_end last
    refine ⟨no_text, ?_⟩
    have stop := h.place.scan.offset_eq none_left
    rw [Cursor.offset_scan, Lexeme.stop, no_text] at stop
    exact stop

/-- A scanner at the end of its text goes over the rest of it. -/
theorem Sound.passes_of_end {s : Scanner} {text : String} (h : s.Sound text)
    (last : s.scan.current.kind = .endOfFileToken) : s.passes text = s.cursor.rest := by
  obtain ⟨-, -, none_left⟩ := Cursor.scan_end last
  rw [← h.passes_append, cursor_scan, none_left, List.append_nil]

/-- Scanning on comes to the end of the text, and goes over all that is left of it: each token but the
last takes up characters. -/
theorem exists_end {text : String} (n : Nat) (s : Session) (h : s.scanner.Sound text)
    (enough : s.scanner.cursor.rest.length < n) :
    let scanned (m : Nat) := ((List.replicate m .scan).foldl Session.call s).scanner
    ∃ m < n, (scanned (m + 1)).current.kind = .endOfFileToken ∧
      (List.range (m + 1)).flatMap (fun i => (scanned i).passes text) = s.scanner.cursor.rest := by
  induction n generalizing s with
  | zero => exact absurd enough (Nat.not_lt_zero _)
  | succ n ih =>
    by_cases last : s.scanner.scan.current.kind = .endOfFileToken
    · refine ⟨0, Nat.succ_pos n, last, ?_⟩
      exact (List.append_nil _).trans (h.passes_of_end last)
    · have shorter : (s.call .scan).scanner.cursor.rest.length < s.scanner.cursor.rest.length :=
        Cursor.length_scan last
      obtain ⟨m, lt, found, covered⟩ := ih (s.call .scan) h.scan (by omega)
      refine ⟨m + 1, Nat.succ_lt_succ lt, found, ?_⟩
      rw [List.range_succ_eq_map, List.flatMap_cons, List.flatMap_map]
      exact (congrArg _ covered).trans h.passes_append

/-- Whatever is done with the scanner of a text, what it says is there in the text and the next token
follows behind trivia. Scanning on from the start, it comes to the end of the text with at most one
token more than the text has characters, and the gaps and tokens up to there are the text. -/
theorem behind_tiles (text : String) :
    (∀ calls, (behind text calls).Defined text ∧ (behind text calls).Tiles text) ∧
      ∃ n ≤ text.length,
        (behind text (List.replicate (n + 1) .scan)).current.kind = .endOfFileToken ∧
          (List.range (n + 1)).flatMap
            (fun i => (behind text (List.replicate i .scan)).passes text) = text.toList := by
  refine ⟨fun calls => ?_, ?_⟩
  · have sound := sound_behind text calls
    exact ⟨sound.defined, sound.tiles⟩
  · obtain ⟨n, lt, found, covered⟩ := exists_end (text.length + 1) ⟨ofText text, []⟩
      (sound_ofText text) (Nat.lt_succ_of_le (Nat.le_of_eq String.length_toList))
    exact ⟨n, Nat.le_of_lt_succ lt, found, covered⟩

end Scanner

end Ambient

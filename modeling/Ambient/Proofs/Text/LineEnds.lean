import Ambient.Lexeme.Documentation
import Ambient.Proofs.Lexeme.Pieces

namespace Ambient

/-- A text with a carriage return in front of each line feed. -/
def crlf (cs : List Char) : List Char := cs.flatMap fun c => if c = '\n' then ['\r', '\n'] else [c]

/-- The text with a carriage return in front of each line feed. -/
def withCrlf (text : String) : String := String.ofList (crlf text.toList)

section

variable {cs : List Char}

theorem crlf_nil : crlf [] = [] := rfl

theorem crlf_newline (cs : List Char) : crlf ('\n' :: cs) = '\r' :: '\n' :: crlf cs := rfl

theorem crlf_cons {c : Char} (other : c ≠ '\n') (cs : List Char) : crlf (c :: cs) = c :: crlf cs := by
  rw [crlf, List.flatMap_cons, if_neg other]
  rfl

theorem crlf_append (cs ds : List Char) : crlf (cs ++ ds) = crlf cs ++ crlf ds := List.flatMap_append

theorem crlf_eq_self (none : '\n' ∉ cs) : crlf cs = cs := by
  induction cs with
  | nil => rfl
  | cons c cs ih =>
    rw [List.mem_cons, not_or] at none
    rw [crlf_cons (Ne.symm none.1), ih none.2]

/-- A text that has line feeds, up to the first one. -/
theorem crlf_split (mem : '\n' ∈ cs) : ∃ line rest, cs = line ++ '\n' :: rest ∧ '\n' ∉ line ∧
    crlf cs = line ++ '\r' :: '\n' :: crlf rest := by
  obtain ⟨line, rest, rfl, none⟩ := List.eq_append_cons_of_mem mem
  exact ⟨line, rest, rfl, none, by rw [crlf_append, crlf_newline, crlf_eq_self none]⟩

/-- A part without line feeds at the start of a text. -/
theorem take_crlf {n : Nat} (none : '\n' ∉ cs.take n) :
    (crlf cs).take n = cs.take n ∧ (crlf cs).drop n = crlf (cs.drop n) := by
  have split : crlf cs = cs.take n ++ crlf (cs.drop n) := by
    have parts := crlf_append (cs.take n) (cs.drop n)
    rwa [List.take_append_drop, crlf_eq_self none] at parts
  by_cases long : n ≤ cs.length
  · have length : (cs.take n).length = n := List.length_take_of_le long
    rw [split]
    exact ⟨List.take_left' length, List.drop_left' length⟩
  · have short : cs.length ≤ n := Nat.le_of_not_le long
    rw [List.take_of_length_le short] at none
    rw [crlf_eq_self none, List.drop_eq_nil_of_le short]
    exact ⟨rfl, rfl⟩

theorem crlf_eq_nil : crlf cs = [] ↔ cs = [] := by
  refine ⟨fun h => ?_, fun h => h.symm ▸ rfl⟩
  cases cs with
  | nil => rfl
  | cons c cs =>
    by_cases lf : c = '\n'
    · simp [lf, crlf_newline] at h
    · simp [crlf_cons lf] at h

variable {p : Char → Bool} (lf : p '\n' = false) (cr : p '\r' = false)
include lf cr

theorem takeWhile_crlf (cs : List Char) : (crlf cs).takeWhile p = cs.takeWhile p ∧
    (crlf cs).dropWhile p = crlf (cs.dropWhile p) := by
  induction cs with
  | nil => exact ⟨rfl, rfl⟩
  | cons c cs ih =>
    by_cases is : c = '\n'
    · subst is
      rw [crlf_newline, List.takeWhile_cons_of_neg (by simp [cr]),
        List.takeWhile_cons_of_neg (by simp [lf]), List.dropWhile_cons_of_neg (by simp [cr]),
        List.dropWhile_cons_of_neg (by simp [lf]), crlf_newline]
      exact ⟨rfl, rfl⟩
    · rw [crlf_cons is, List.takeWhile_cons, List.takeWhile_cons, List.dropWhile_cons,
        List.dropWhile_cons, ih.1, ih.2]
      split
      · exact ⟨rfl, rfl⟩
      · exact ⟨rfl, (crlf_cons is cs).symm⟩

end

namespace LineMap

theorem startsAfter_cons {c : Char} (other : c ≠ '\n') (k : Nat) (cs : List Char) :
    startsAfter k (c :: cs) = startsAfter (k + c.utf8Size) cs := if_neg other

theorem startsAfter_newline (k : Nat) (cs : List Char) :
    startsAfter k ('\n' :: cs) = (k + 1) :: startsAfter (k + 1) cs := rfl

theorem startsAfter_append (k : Nat) (cs ds : List Char) :
    startsAfter k (cs ++ ds) = startsAfter k cs ++ startsAfter (k + byteLength cs) ds := by
  induction cs generalizing k with
  | nil => rfl
  | cons c cs ih =>
    rw [List.cons_append, byteLength_cons, ← Nat.add_assoc]
    by_cases lf : c = '\n'
    · subst lf
      rw [startsAfter_newline, startsAfter_newline, ih]
      rfl
    · rw [startsAfter_cons lf, startsAfter_cons lf, ih]

/-- Lines start behind the place from which on they are counted, and in the text. -/
theorem lt_of_mem_startsAfter {k n : Nat} {cs : List Char} (mem : n ∈ startsAfter k cs) :
    k < n ∧ n ≤ k + byteLength cs := by
  induction cs generalizing k with
  | nil => cases mem
  | cons c cs ih =>
    have size := c.utf8Size_pos
    rw [byteLength_cons]
    by_cases lf : c = '\n'
    · subst lf
      rw [startsAfter_newline] at mem
      rcases List.mem_cons.mp mem with rfl | mem
      · exact ⟨Nat.lt_succ_self k, Nat.add_le_add_left (Nat.le_add_right_of_le size) k⟩
      · have := ih mem
        omega
    · rw [startsAfter_cons lf] at mem
      have := ih mem
      omega

/-- Line and column of a place depend on what stands before it only. -/
theorem locate_of_append {text : String} {before rest : List Char}
    (h : text.toList = before ++ rest) : (ofText text).locate (byteLength before) =
      ⟨(startsAfter 0 before).length, byteLength before - (startsAfter 0 before).getLastD 0⟩ := by
  have size : text.utf8ByteSize = byteLength before + byteLength rest := by
    rw [← String.ofList_toList (s := text), Cursor.utf8ByteSize_ofList, h, byteLength_append]
  have inside : min (byteLength before) (byteLength before + byteLength rest) = byteLength before :=
    Nat.min_eq_left (Nat.le_add_right _ _)
  have reached : (0 :: startsAfter 0 text.toList).filter (· ≤ byteLength before) =
      0 :: startsAfter 0 before := by
    rw [h, startsAfter_append, Nat.zero_add, List.filter_cons_of_pos (by simp), List.filter_append,
      List.filter_eq_self.mpr, List.filter_eq_nil_iff.mpr, List.append_nil]
    · intro n mem
      simpa using (lt_of_mem_startsAfter mem).1
    · intro n mem
      simpa using (lt_of_mem_startsAfter mem).2
  simp only [locate, ofText, size, inside, reached, List.length_cons, Nat.add_sub_cancel,
    List.getLastD_cons]

/-- There are as many lines, and the end is as far from the start of the last one. Here the last line
before `cs` starts at `last`. -/
theorem startsAfter_crlf (cs : List Char) {k k' last last' : Nat} (same : k + last' = k' + last) :
    (startsAfter k cs).length = (startsAfter k' (crlf cs)).length ∧
      k + byteLength cs - (startsAfter k cs).getLastD last =
        k' + byteLength (crlf cs) - (startsAfter k' (crlf cs)).getLastD last' := by
  induction cs generalizing k k' last last' with
  | nil =>
    refine ⟨rfl, ?_⟩
    simp only [startsAfter, crlf_nil, byteLength, List.foldr_nil, List.getLastD_nil]
    omega
  | cons c cs ih =>
    by_cases lf : c = '\n'
    · subst lf
      have size : k + byteLength ('\n' :: cs) = k + 1 + byteLength cs := (Nat.add_assoc k 1 _).symm
      have size' : k' + byteLength ('\r' :: '\n' :: crlf cs) = k' + 1 + 1 + byteLength (crlf cs) := by
        rw [byteLength_cons, byteLength_cons, ← Nat.add_assoc, ← Nat.add_assoc]
        rfl
      have cr : startsAfter k' ('\r' :: '\n' :: crlf cs) =
          (k' + 1 + 1) :: startsAfter (k' + 1 + 1) (crlf cs) := rfl
      obtain ⟨length, column⟩ := ih (Nat.add_comm (k + 1) (k' + 1 + 1))
      rw [crlf_newline, cr, startsAfter_newline, size, size', List.getLastD_cons, List.getLastD_cons,
        List.length_cons, List.length_cons, length]
      exact ⟨rfl, column⟩
    · have later : k + c.utf8Size + last' = k' + c.utf8Size + last := by omega
      rw [crlf_cons lf, startsAfter_cons lf, startsAfter_cons lf, byteLength_cons, byteLength_cons,
        ← Nat.add_assoc, ← Nat.add_assoc]
      exact ih later

/-- A place keeps its line and its column. -/
theorem locate_withCrlf {text : String} {before rest : List Char}
    (h : text.toList = before ++ rest) : (ofText text).locate (byteLength before) =
      (ofText (withCrlf text)).locate (byteLength (crlf before)) := by
  have h' : (withCrlf text).toList = crlf before ++ crlf rest := by
    rw [withCrlf, String.toList_ofList, h, crlf_append]
  obtain ⟨line, column⟩ := startsAfter_crlf before (Nat.add_comm 0 0)
  rw [Nat.zero_add, Nat.zero_add] at column
  rw [locate_of_append h, locate_of_append h', line, column]

end LineMap

theorem crlf_concat {cs before : List Char} {c : Char} (other : c ≠ '\n')
    (h : crlf cs = before ++ [c]) : ∃ init, cs = init ++ [c] ∧ crlf init = before := by
  rcases List.eq_nil_or_concat cs with rfl | ⟨init, d, rfl⟩
  · simp [crlf_nil] at h
  · rw [List.concat_eq_append, crlf_append] at h
    by_cases lf : d = '\n'
    · have last : (crlf init ++ crlf [d]).getLast? = some '\n' := by
        rw [lf, crlf_newline]
        simp [crlf_nil]
      rw [h, List.getLast?_append] at last
      simp [other] at last
    · rw [crlf_cons lf, crlf_nil] at h
      obtain ⟨eq, last⟩ := List.append_inj' h rfl
      obtain rfl := List.singleton_inj.mp last
      exact ⟨init, List.concat_eq_append, eq⟩

/-- Texts that end a block comment do so with other line ends. -/
theorem suffix_crlf_iff {cs : List Char} : ['*', '/'] <:+ crlf cs ↔ ['*', '/'] <:+ cs := by
  constructor
  · rintro ⟨before, eq⟩
    have slash : crlf cs = before ++ ['*'] ++ ['/'] := by rw [← eq, List.append_assoc]; rfl
    obtain ⟨init, rfl, star⟩ := crlf_concat (by decide) slash
    obtain ⟨body, rfl, -⟩ := crlf_concat (by decide) star
    exact ⟨body, by rw [List.append_assoc]; rfl⟩
  · rintro ⟨body, rfl⟩
    rw [crlf_append]
    exact List.suffix_append _ _

theorem commentBody_line (cs : List Char) :
    commentBody ('/' :: '/' :: cs) = cs.dropWhile (· = '/') := rfl

theorem commentBody_block (cs : List Char) : commentBody ('/' :: '*' :: cs) =
    if ['*', '/'].isSuffixOf cs then cs.take (cs.length - 2) else cs := rfl

theorem commentBody_other {c d : Char} (cs : List Char) (no_line : ¬ (c = '/' ∧ d = '/'))
    (no_block : ¬ (c = '/' ∧ d = '*')) : commentBody (c :: d :: cs) = c :: d :: cs := by
  unfold commentBody
  split
  · rename_i eq
    simp only [List.cons.injEq] at eq
    exact absurd ⟨eq.1, eq.2.1⟩ no_line
  · rename_i eq
    simp only [List.cons.injEq] at eq
    exact absurd ⟨eq.1, eq.2.1⟩ no_block
  · rfl

theorem commentBody_block_crlf (cs : List Char) :
    commentBody ('/' :: '*' :: crlf cs) = crlf (commentBody ('/' :: '*' :: cs)) := by
  simp only [commentBody_block, List.isSuffixOf_iff_suffix, suffix_crlf_iff]
  split
  · rename_i ends
    obtain ⟨body, rfl⟩ := ends
    have cut (body : List Char) : (body ++ ['*', '/']).take ((body ++ ['*', '/']).length - 2) = body := by
      rw [List.length_append]
      exact List.take_left' rfl
    rw [cut, crlf_append]
    exact cut (crlf body)
  · rfl

theorem commentBody_crlf (cs : List Char) : commentBody (crlf cs) = crlf (commentBody cs) := by
  rcases cs with _ | ⟨c, _ | ⟨d, cs⟩⟩
  · rfl
  · by_cases lf : c = '\n'
    · subst lf
      rfl
    · have alone : commentBody [c] = [c] := by simp [commentBody]
      rw [crlf_cons lf, crlf_nil, alone, crlf_cons lf, crlf_nil]
  by_cases lf : c = '\n'
  · subst lf
    rw [commentBody_other cs (by simp) (by simp), crlf_newline, commentBody_other _ (by simp) (by simp)]
  by_cases lf' : d = '\n'
  · subst lf'
    rw [commentBody_other cs (by simp) (by simp), crlf_cons lf, crlf_newline,
      commentBody_other _ (by simp) (by simp)]
  rw [crlf_cons lf, crlf_cons lf']
  by_cases line : c = '/' ∧ d = '/'
  · obtain ⟨rfl, rfl⟩ := line
    rw [commentBody_line, commentBody_line]
    exact (takeWhile_crlf rfl rfl cs).2
  by_cases block : c = '/' ∧ d = '*'
  · obtain ⟨rfl, rfl⟩ := block
    exact commentBody_block_crlf cs
  · rw [commentBody_other _ line block, commentBody_other _ line block, crlf_cons lf, crlf_cons lf']

theorem splitLines_ne_nil (cs : List Char) : splitLines cs ≠ [] := by
  cases cs with
  | nil => exact List.cons_ne_nil _ _
  | cons c cs =>
    rw [splitLines]
    split
    · exact List.cons_ne_nil _ _
    · split <;> exact List.cons_ne_nil _ _

theorem splitLines_crlf (cs : List Char) : (splitLines cs).Forall₂
    (fun line line' => line' = line ∨ line' = line ++ ['\r']) (splitLines (crlf cs)) := by
  induction cs with
  | nil => exact .cons (.inl rfl) .nil
  | cons c cs ih =>
    obtain ⟨line, lines, eq⟩ := List.exists_cons_of_ne_nil (splitLines_ne_nil cs)
    obtain ⟨line', lines', eq'⟩ := List.exists_cons_of_ne_nil (splitLines_ne_nil (crlf cs))
    rw [eq, eq'] at ih
    by_cases lf : c = '\n'
    · subst lf
      simp only [crlf_newline, splitLines, eq, eq', if_true]
      exact .cons (.inr rfl) ih
    · simp only [crlf_cons lf, splitLines, eq, eq', if_neg lf]
      obtain _ | ⟨first, others⟩ := ih
      refine .cons (first.imp (congrArg _) (congrArg _)) others

theorem trim_append_return (line : List Char) : trim (line ++ ['\r']) = trim line := by
  rw [trim, trim, List.dropWhile_append]
  split
  · rename_i none
    rw [List.isEmpty_iff.mp none]
    rfl
  · rw [List.reverse_append]
    rfl

theorem documentation_withCrlf (comment : String) :
    documentation (withCrlf comment) = documentation comment := by
  have lines : documentationLines (withCrlf comment) = documentationLines comment := by
    have same : (splitLines (commentBody (withCrlf comment).toList)).map undecorate =
        (splitLines (commentBody comment.toList)).map undecorate := by
      rw [withCrlf, String.toList_ofList, commentBody_crlf, eq_comm, ← List.forall₂_eq_eq_eq,
        List.forall₂_map_left_iff, List.forall₂_map_right_iff]
      refine (splitLines_crlf _).imp fun line line' ends => ?_
      rcases ends with rfl | rfl
      · rfl
      · rw [undecorate, undecorate, trim_append_return]
    rw [documentationLines, same, documentationLines]
  rw [documentation, lines, documentation]

end Ambient

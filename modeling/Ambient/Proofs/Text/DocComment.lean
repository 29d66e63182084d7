import Mathlib.Data.List.DropRight
import Ambient.Proofs.Text.LineEnds

namespace Ambient

/-- The block comment with some lines, each behind a star on a line of its own. -/
def docComment (newline : String) (lines : List String) : String :=
  newline.intercalate ("/**" :: lines.map (" * " ++ ·) ++ [" */"])

/-- A line that a block comment can hold, with nothing to be cut off at its ends. -/
structure IsDocLine (line : String) : Prop where
  ne_empty : line ≠ ""
  no_newline : '\n' ∉ line.toList
  no_end : ¬ ['*', '/'] <:+: line.toList
  first : line.toList.head?.any isWhiteSpace = false
  last : line.toList.getLast?.any isWhiteSpace = false

theorem isDocLine_iff {line : String} : IsDocLine line ↔
    line ≠ "" ∧ '\n' ∉ line.toList ∧ ¬ ['*', '/'] <:+: line.toList ∧
      line.toList.head?.any isWhiteSpace = false ∧
      line.toList.getLast?.any isWhiteSpace = false :=
  ⟨fun h => ⟨h.ne_empty, h.no_newline, h.no_end, h.first, h.last⟩,
    fun ⟨ne_empty, no_newline, no_end, first, last⟩ => ⟨ne_empty, no_newline, no_end, first, last⟩⟩

/-- The pieces of a text between the places where a carriage return and a line feed stand. -/
def crlfLines : List Char → List (List Char)
  | [] => [[]]
  | '\r' :: '\n' :: cs => [] :: crlfLines cs
  | c :: cs =>
    match crlfLines cs with
    | [] => [[c]]
    | line :: lines => (c :: line) :: lines

theorem intercalate_cons {α : Type} (sep first : List α) (others : List (List α)) :
    sep.intercalate (first :: others) = first ++ others.flatMap (sep ++ ·) := by
  induction others generalizing first with
  | nil => rw [List.intercalate_singleton, List.flatMap_nil, List.append_nil]
  | cons second others ih =>
    rw [List.intercalate_cons_cons, ih, List.flatMap_cons]
    simp only [List.append_assoc]

section

variable {cs line : List Char}

theorem trim_eq (cs : List Char) : trim cs = (cs.dropWhile isWhiteSpace).rdropWhile isWhiteSpace := rfl

theorem trim_eq_self (first : cs.head?.any isWhiteSpace = false)
    (last : cs.getLast?.any isWhiteSpace = false) : trim cs = cs := by
  have front : cs.dropWhile isWhiteSpace = cs := by
    cases cs with
    | nil => rfl
    | cons c cs => exact List.dropWhile_cons_of_neg (Bool.eq_false_iff.mp first)
  rw [trim_eq, front, List.rdropWhile_eq_self_iff]
  intro some
  rw [List.getLast?_eq_getLast_of_ne_nil some] at last
  exact Bool.eq_false_iff.mp last

theorem trim_cons {c : Char} (white : isWhiteSpace c = true) (cs : List Char) :
    trim (c :: cs) = trim cs := by
  rw [trim_eq, trim_eq, List.dropWhile_cons_of_pos white]

theorem trim_sublist (cs : List Char) : (trim cs).Sublist cs :=
  (List.rdropWhile_prefix _ _).sublist.trans (List.dropWhile_suffix _).sublist

/-- What has been trimmed has no white space at its ends. -/
theorem trim_trim (cs : List Char) : trim (trim cs) = trim cs := by
  cases kept : trim cs with
  | nil => rfl
  | cons c rest =>
    have some : trim cs ≠ [] := by simp [kept]
    rw [← kept]
    apply trim_eq_self
    · obtain ⟨behind, eq⟩ := List.rdropWhile_prefix isWhiteSpace (cs.dropWhile isWhiteSpace)
      have white := List.head?_dropWhile_not isWhiteSpace cs
      rw [← eq, ← trim_eq, kept] at white
      rwa [kept]
    · have white := List.rdropWhile_last_not isWhiteSpace (cs.dropWhile isWhiteSpace) some
      rw [List.getLast?_eq_getLast_of_ne_nil some]
      exact Bool.eq_false_iff.mpr white

theorem undecorate_sublist (line : List Char) : (undecorate line).Sublist line :=
  (trim_sublist _).trans ((List.dropWhile_suffix _).sublist.trans (trim_sublist line))

theorem trim_undecorate (line : List Char) : trim (undecorate line) = undecorate line := trim_trim _

/-- A star with blanks around it is decoration, and what follows is not, even if it starts with a
star. -/
theorem undecorate_star (some : line ≠ []) (first : line.head?.any isWhiteSpace = false)
    (last : line.getLast?.any isWhiteSpace = false) :
    undecorate (' ' :: '*' :: ' ' :: line) = line := by
  have blank : isWhiteSpace ' ' = true := by decide
  have decorates : isWhiteSpace '*' = false := by decide
  have star : trim ('*' :: ' ' :: line) = '*' :: ' ' :: line := by
    apply trim_eq_self
    · exact decorates
    · rwa [List.getLast?_cons_cons, List.getLast?_cons_of_ne_nil some]
  rw [undecorate, trim_cons blank, star, List.dropWhile_cons_of_pos (by decide),
    List.dropWhile_cons_of_neg (by decide), trim_cons blank, trim_eq_self first last]

end

section

variable {cs line : List Char} {lines : List (List Char)}

theorem splitLines_newline (cs : List Char) : splitLines ('\n' :: cs) = [] :: splitLines cs := by
  obtain ⟨line, lines, eq⟩ := List.exists_cons_of_ne_nil (splitLines_ne_nil cs)
  rw [splitLines, eq]
  rfl

theorem splitLines_cons {c : Char} (other : c ≠ '\n') (eq : splitLines cs = line :: lines) :
    splitLines (c :: cs) = (c :: line) :: lines := by
  rw [splitLines, eq]
  exact if_neg other

theorem splitLines_append {front : List Char} (plain : '\n' ∉ front)
    (eq : splitLines cs = line :: lines) : splitLines (front ++ cs) = (front ++ line) :: lines := by
  induction front with
  | nil => exact eq
  | cons c front ih =>
    rw [List.mem_cons, not_or] at plain
    exact splitLines_cons (Ne.symm plain.1) (ih plain.2)

/-- Lines with line feeds between them are what the text is split into. -/
theorem splitLines_join (first : '\n' ∉ line) (others : ∀ l ∈ lines, '\n' ∉ l) :
    splitLines (line ++ lines.flatMap (['\n'] ++ ·)) = line :: lines := by
  induction lines generalizing line with
  | nil =>
    have alone : splitLines (line ++ []) = [line ++ []] := splitLines_append first rfl
    rw [List.append_nil] at alone
    rwa [List.flatMap_nil, List.append_nil]
  | cons second lines ih =>
    obtain ⟨second_plain, others⟩ := List.forall_mem_cons.mp others
    have rest := splitLines_newline (second ++ lines.flatMap (['\n'] ++ ·))
    rw [ih second_plain others] at rest
    have whole := splitLines_append first rest
    rwa [List.append_nil] at whole

theorem newline_not_mem_of_mem_splitLines (h : line ∈ splitLines cs) : '\n' ∉ line := by
  induction cs generalizing line with
  | nil =>
    obtain rfl := List.mem_singleton.mp h
    exact List.not_mem_nil
  | cons c cs ih =>
    by_cases lf : c = '\n'
    · rw [lf, splitLines_newline] at h
      obtain rfl | mem := List.mem_cons.mp h
      · exact List.not_mem_nil
      · exact ih mem
    · obtain ⟨first, others, eq⟩ := List.exists_cons_of_ne_nil (splitLines_ne_nil cs)
      rw [splitLines_cons lf eq] at h
      rw [eq] at ih
      obtain rfl | mem := List.mem_cons.mp h
      · rw [List.mem_cons, not_or]
        exact ⟨Ne.symm lf, ih List.mem_cons_self⟩
      · exact ih (List.mem_cons_of_mem _ mem)

theorem crlfLines_cons {c : Char} (other : c = '\r' → cs.head? ≠ some '\n')
    (eq : crlfLines cs = line :: lines) : crlfLines (c :: cs) = (c :: line) :: lines := by
  rw [crlfLines, eq]
  rintro rest rfl rfl
  exact other rfl rfl

theorem crlfLines_append {front : List Char} (plain : '\n' ∉ front) (stop : cs.head? ≠ some '\n')
    (eq : crlfLines cs = line :: lines) : crlfLines (front ++ cs) = (front ++ line) :: lines := by
  induction front with
  | nil => exact eq
  | cons c front ih =>
    rw [List.mem_cons, not_or] at plain
    refine crlfLines_cons (fun _ => ?_) (ih plain.2)
    cases front with
    | nil => exact stop
    | cons d front =>
      have other : '\n' ≠ d := fun is => plain.2 (is ▸ List.mem_cons_self)
      simpa using other.symm

theorem crlfLines_join (first : '\n' ∉ line) (others : ∀ l ∈ lines, '\n' ∉ l) :
    crlfLines (line ++ lines.flatMap (['\r', '\n'] ++ ·)) = line :: lines := by
  induction lines generalizing line with
  | nil =>
    have alone : crlfLines (line ++ []) = [line ++ []] := crlfLines_append first (by simp) rfl
    rw [List.append_nil] at alone
    rwa [List.flatMap_nil, List.append_nil]
  | cons second lines ih =>
    obtain ⟨second_plain, others⟩ := List.forall_mem_cons.mp others
    have rest : crlfLines ('\r' :: '\n' :: (second ++ lines.flatMap (['\r', '\n'] ++ ·))) =
        [] :: second :: lines := by
      rw [crlfLines, ih second_plain others]
    have whole := crlfLines_append first (by simp) rest
    rwa [List.append_nil] at whole

end

/-- The lines of a documentation text are not empty, and have no white space at their ends. -/
theorem lines_of_documentation {comment text : String} (h : documentation comment = some text) :
    ∀ line ∈ crlfLines text.toList, line ≠ [] ∧ trim line = line := by
  have each : ∀ line ∈ documentationLines comment,
      '\n' ∉ line ∧ line ≠ [] ∧ trim line = line := by
    intro line mem
    obtain ⟨listed, some⟩ := List.mem_filter.mp mem
    obtain ⟨raw, split, rfl⟩ := List.mem_map.mp listed
    refine ⟨fun newline => ?_, by simpa using some, trim_undecorate raw⟩
    exact newline_not_mem_of_mem_splitLines split ((undecorate_sublist raw).subset newline)
  unfold documentation at h
  cases eq : documentationLines comment with
  | nil => simp [eq] at h
  | cons first others =>
    rw [eq] at h each
    obtain rfl := Option.some.inj h
    obtain ⟨plain, others_plain⟩ := List.forall_mem_cons.mp fun line mem => (each line mem).1
    have split : crlfLines ("\r\n".intercalate ((first :: others).map String.ofList)).toList =
        first :: others := by
      have chars : (first :: others).map (String.toList ∘ String.ofList) = first :: others := by
        simp [Function.comp_def]
      have newline : "\r\n".toList = ['\r', '\n'] := by simp
      rw [String.toList_intercalate, List.map_map, chars, newline, intercalate_cons,
        crlfLines_join plain others_plain]
    rw [split]
    exact fun line mem => (each line mem).2

section

variable {lines : List String}

/-- The lines of a comment behind its first one. -/
def starred (lines : List String) : List (List Char) :=
  (lines.map fun line => ' ' :: '*' :: ' ' :: line.toList) ++ [[' ']]

/-- What stands between the delimiters of a comment with some lines. -/
def docBody (newline : List Char) (lines : List String) : List Char :=
  ['*'] ++ (starred lines).flatMap (newline ++ ·)

theorem toList_docComment (newline : String) (lines : List String) :
    (docComment newline lines).toList = '/' :: '*' :: (docBody newline.toList lines ++ ['*', '/']) := by
  have first : "/**".toList = ['/', '*', '*'] := by simp
  have last : " */".toList = [' ', '*', '/'] := by simp
  have star : " * ".toList = [' ', '*', ' '] := by simp
  rw [docComment, String.toList_intercalate, List.cons_append, List.map_cons, intercalate_cons, first]
  simp [docBody, starred, last, star, Function.comp_def]

theorem commentBody_docComment (newline : String) (lines : List String) :
    commentBody (docComment newline lines).toList = docBody newline.toList lines := by
  rw [toList_docComment, commentBody_block, if_pos]
  · rw [List.length_append]
    exact List.take_left' rfl
  · rw [List.isSuffixOf_iff_suffix]
    exact List.suffix_append _ _

theorem IsDocLine.toList_ne_nil {line : String} (h : IsDocLine line) : line.toList ≠ [] := by
  intro none
  exact h.ne_empty (String.toList_eq_nil_iff.mp none)

theorem IsDocLine.undecorate_eq {line : String} (h : IsDocLine line) :
    undecorate (' ' :: '*' :: ' ' :: line.toList) = line.toList :=
  undecorate_star h.toList_ne_nil h.first h.last

theorem forall_mem_starred {P : List Char → Prop} (blank : P [' '])
    (each : ∀ line ∈ lines, P (' ' :: '*' :: ' ' :: line.toList)) : ∀ l ∈ starred lines, P l := by
  intro l mem
  rcases List.mem_append.mp mem with behind_star | last
  · obtain ⟨line, listed, rfl⟩ := List.mem_map.mp behind_star
    exact each line listed
  · exact List.mem_singleton.mp last ▸ blank

theorem newline_not_mem_starred (each : ∀ line ∈ lines, IsDocLine line) :
    ∀ l ∈ starred lines, '\n' ∉ l := by
  apply forall_mem_starred
  · decide
  · intro line listed
    simpa using (each line listed).no_newline

theorem documentationLines_docComment (each : ∀ line ∈ lines, IsDocLine line) :
    documentationLines (docComment "\n" lines) = lines.map String.toList := by
  have newline : "\n".toList = ['\n'] := by simp
  have split : splitLines (docBody ['\n'] lines) = ['*'] :: starred lines :=
    splitLines_join (by decide) (newline_not_mem_starred each)
  have first : undecorate ['*'] = [] := by decide
  have last : undecorate [' '] = [] := by decide
  have between : (lines.map fun line => ' ' :: '*' :: ' ' :: line.toList).map undecorate =
      lines.map String.toList := by
    rw [List.map_map]
    exact List.map_congr_left fun line mem => (each line mem).undecorate_eq
  have kept : (lines.map String.toList).filter (fun line => !line.isEmpty) =
      lines.map String.toList := by
    apply List.filter_eq_self.mpr
    intro l mem
    obtain ⟨line, listed, rfl⟩ := List.mem_map.mp mem
    simpa using (each line listed).ne_empty
  rw [documentationLines, commentBody_docComment, newline, split, starred, List.map_cons,
    List.map_append, between, first, List.map_singleton, last, List.filter_cons_of_neg (by simp),
    List.filter_append, kept]
  exact List.append_nil _

theorem crlf_join {ls : List (List Char)} (plain : ∀ l ∈ ls, '\n' ∉ l) :
    crlf (ls.flatMap (['\n'] ++ ·)) = ls.flatMap (['\r', '\n'] ++ ·) := by
  induction ls with
  | nil => rfl
  | cons l ls ih =>
    obtain ⟨first, others⟩ := List.forall_mem_cons.mp plain
    rw [List.flatMap_cons, List.flatMap_cons, crlf_append, ih others, List.cons_append, crlf_newline,
      List.nil_append, crlf_eq_self first]
    rfl

/-- With other line ends, the comment is the same one with other line ends. -/
theorem docComment_crlf (each : ∀ line ∈ lines, IsDocLine line) :
    docComment "\r\n" lines = withCrlf (docComment "\n" lines) := by
  have newline : "\n".toList = ['\n'] := by simp
  have both : "\r\n".toList = ['\r', '\n'] := by simp
  have star : crlf ['*'] = ['*'] := rfl
  have body : crlf (docBody ['\n'] lines) = docBody ['\r', '\n'] lines := by
    rw [docBody, crlf_append, crlf_join (newline_not_mem_starred each), star, docBody]
  have last : crlf ['*', '/'] = ['*', '/'] := rfl
  rw [← String.toList_inj, withCrlf, String.toList_ofList, toList_docComment, toList_docComment, newline,
    both, crlf_cons (by decide), crlf_cons (by decide), crlf_append, body, last]

/-- The lines of a comment are what it documents. -/
theorem documentation_docComment {newline : String} (is : newline = "\n" ∨ newline = "\r\n")
    (some : lines ≠ []) (each : ∀ line ∈ lines, IsDocLine line) :
    documentation (docComment newline lines) = Option.some ("\r\n".intercalate lines) := by
  have plain : documentation (docComment "\n" lines) = Option.some ("\r\n".intercalate lines) := by
    obtain ⟨line, others, rfl⟩ := List.exists_cons_of_ne_nil some
    rw [documentation, documentationLines_docComment each, List.map_cons]
    simp
  rcases is with rfl | rfl
  · exact plain
  · rw [docComment_crlf each, documentation_withCrlf, plain]

/-- Two texts without an end of a comment have none together, unless one starts at the end of the
first. -/
theorem not_infix_append {front back : List Char} (h : ¬ ['*', '/'] <:+: front)
    (g : ¬ ['*', '/'] <:+: back) (apart : front.getLast? ≠ some '*' ∨ back.head? ≠ some '/') :
    ¬ ['*', '/'] <:+: front ++ back := by
  induction front with
  | nil => exact g
  | cons c front ih =>
    rw [List.infix_cons_iff, not_or] at h
    rw [List.cons_append, List.infix_cons_iff, not_or]
    obtain ⟨not_here, later⟩ := h
    cases front with
    | nil =>
      refine ⟨fun here => ?_, g⟩
      obtain ⟨rfl, slash⟩ := List.cons_prefix_cons.mp here
      obtain ⟨rest, rfl⟩ := slash
      exact apart.elim (fun star => star rfl) (fun head => head rfl)
    | cons d front =>
      rw [List.getLast?_cons_cons] at apart
      refine ⟨fun here => not_here ?_, ih later apart⟩
      obtain ⟨rfl, slash⟩ := List.cons_prefix_cons.mp here
      obtain ⟨rfl, -⟩ := List.cons_prefix_cons.mp slash
      exact List.prefix_append ['*', '/'] front

/-- A row of lines without an end of a comment has none, where the line end cannot be part of one. -/
theorem not_infix_join {newline : List Char} {ls : List (List Char)} (no_end : ¬ ['*', '/'] <:+: newline)
    (first : ∃ c ∈ newline.head?, c ≠ '/') (last : newline.getLast? ≠ some '*')
    (each : ∀ l ∈ ls, ¬ ['*', '/'] <:+: l) :
    ¬ ['*', '/'] <:+: ls.flatMap (newline ++ ·) ∧ (ls.flatMap (newline ++ ·)).head? ≠ some '/' := by
  obtain ⟨c, head, other⟩ := first
  induction ls with
  | nil => simp
  | cons l ls ih =>
    obtain ⟨here, others⟩ := List.forall_mem_cons.mp each
    obtain ⟨rest, rest_first⟩ := ih others
    rw [List.flatMap_cons]
    refine ⟨not_infix_append (not_infix_append no_end here (.inl last)) rest (.inr rest_first), ?_⟩
    rw [List.append_assoc, List.head?_append, head]
    simpa using other

/-- A comment ends where it is meant to. -/
theorem not_infix_docBody {newline : String} (is : newline = "\n" ∨ newline = "\r\n")
    (each : ∀ line ∈ lines, IsDocLine line) :
    ¬ ['*', '/'] <:+: docBody newline.toList lines ++ ['*'] := by
  have none : ∀ l ∈ starred lines, ¬ ['*', '/'] <:+: l := by
    apply forall_mem_starred
    · decide
    · intro line listed
      have star : ¬ ['*', '/'] <:+: [' ', '*', ' '] := by decide
      exact not_infix_append star (each line listed).no_end (.inl (by decide))
  have newlines : ¬ ['*', '/'] <:+: newline.toList ∧ (∃ c ∈ newline.toList.head?, c ≠ '/') ∧
      newline.toList.getLast? ≠ some '*' := by
    rcases is with rfl | rfl
    · exact ⟨by decide, ⟨'\n', by decide, by decide⟩, by decide⟩
    · exact ⟨by decide, ⟨'\r', by decide, by decide⟩, by decide⟩
  obtain ⟨no_end, first, last⟩ := newlines
  obtain ⟨rest, rest_first⟩ := not_infix_join no_end first last none
  have star : ¬ ['*', '/'] <:+: ['*'] := by decide
  rw [docBody]
  exact not_infix_append (not_infix_append star rest (.inr rest_first)) star (.inr (by decide))

end

end Ambient

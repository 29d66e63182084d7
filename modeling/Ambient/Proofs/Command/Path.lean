import Mathlib.Tactic.Common
import Ambient.Command.Path

namespace Ambient.Path

theorem segments_ne_nil (cs : List Char) : segments cs ≠ [] := by
  cases cs with
  | nil => simp [segments]
  | cons c cs =>
    unfold segments
    split_ifs
    · simp
    · split <;> simp

theorem segments_slash (cs ds : List Char) :
    segments (cs ++ '/' :: ds) = segments cs ++ segments ds := by
  induction cs with
  | nil => simp [segments]
  | cons c cs ih =>
    rw [List.cons_append, segments, segments, ih]
    split_ifs
    · rfl
    · cases eq : segments cs with
      | nil => exact absurd eq (segments_ne_nil cs)
      | cons s ss => rfl

theorem segments_of_not_mem {cs : List Char} (h : '/' ∉ cs) : segments cs = [cs] := by
  induction cs with
  | nil => rfl
  | cons c cs ih =>
    obtain ⟨other, rest⟩ := not_or.mp (mt List.mem_cons.mpr h)
    rw [segments, if_neg (Ne.symm other), ih rest]

theorem not_mem_of_mem_segments {cs s : List Char} (mem : s ∈ segments cs) : '/' ∉ s := by
  induction cs generalizing s with
  | nil =>
    rw [segments, List.mem_singleton] at mem
    simp [mem]
  | cons c cs ih =>
    rw [segments] at mem
    split_ifs at mem with slash
    · rcases List.mem_cons.mp mem with rfl | mem
      · simp
      · exact ih mem
    · split at mem
      · rename_i t ts eq
        rw [eq] at ih
        rcases List.mem_cons.mp mem with rfl | mem
        · exact mt List.mem_cons.mp (not_or.mpr ⟨Ne.symm slash, ih List.mem_cons_self⟩)
        · exact ih (List.mem_cons_of_mem t mem)
      · rename_i eq
        exact absurd eq (segments_ne_nil cs)

/-- What one part of a path can be called. -/
def IsName (name : String) : Prop := name.toList ≠ [] ∧ '/' ∉ name.toList

theorem isName_of_mem_parts {path name : String} (mem : name ∈ parts path) : IsName name := by
  obtain ⟨s, kept, rfl⟩ := List.mem_map.mp mem
  obtain ⟨mem, some⟩ := List.mem_filter.mp kept
  rw [IsName, String.toList_ofList]
  exact ⟨by simpa using some, not_mem_of_mem_segments mem⟩

theorem IsName.append {name extension : String} (named : IsName name)
    (plain : '/' ∉ extension.toList) : IsName (name ++ extension) := by
  obtain ⟨some, inside⟩ := named
  rw [IsName, String.toList_append]
  exact ⟨by simp [some], by simp [inside, plain]⟩

section

variable {directory name : String}

theorem parts_of_isName (named : IsName name) : parts name = [name] := by
  rw [parts, segments_of_not_mem named.2]
  simp [named.1]

/-- A name behind a slash. -/
theorem parts_slash {path : String} {cs : List Char} (named : IsName name)
    (is : path.toList = cs ++ '/' :: name.toList) : parts path = parts (String.ofList cs) ++ [name] := by
  have last : parts name = [name] := parts_of_isName named
  rw [parts] at last
  simp only [parts, is, String.toList_ofList, segments_slash, List.filter_append, List.map_append, last]

/-- A slash at the end adds no part. -/
theorem parts_of_endsWithSlash {cs : List Char} (is : directory.toList = cs ++ ['/']) :
    parts directory = parts (String.ofList cs) := by
  simp [parts, is, segments_slash, segments]

theorem IsName.not_absolute (named : IsName name) : isAbsolute name = false := by
  rw [isAbsolute, decide_eq_false_iff_not]
  exact fun first => named.2 (List.mem_of_head? first)

theorem parts_join (named : IsName name) : parts (join directory name) = parts directory ++ [name] := by
  rw [join, named.not_absolute]
  simp only [Bool.false_eq_true, if_false]
  split_ifs with ends
  · rcases (Bool.or_eq_true _ _).mp ends with empty | slash
    · obtain rfl := String.isEmpty_iff.mp empty
      rw [String.empty_append, parts_of_isName named]
      rfl
    · obtain ⟨cs, is⟩ := List.getLast?_eq_some_iff.mp (of_decide_eq_true slash)
      rw [parts_of_endsWithSlash is]
      exact parts_slash named (by simp [is])
  · have is : (directory ++ "/" ++ name).toList = directory.toList ++ '/' :: name.toList := by simp
    rw [parts_slash named is, String.ofList_toList]

theorem not_endsWithSlash_join (named : IsName name) :
    endsWithSlash (join directory name) = false := by
  have last {front : String} : endsWithSlash (front ++ name) = false := by
    obtain ⟨c, is⟩ := Option.isSome_iff_exists.mp (List.getLast?_isSome.mpr named.1)
    have inside : c ∈ name.toList := List.mem_of_getLast? is
    rw [endsWithSlash, decide_eq_false_iff_not, String.toList_append, List.getLast?_append, is]
    exact fun slash => named.2 (Option.some.inj slash ▸ inside)
  rw [join, named.not_absolute]
  simp only [Bool.false_eq_true, if_false]
  split_ifs
  · exact last
  · exact last

/-- The last part of a path names its file. -/
theorem fileName?_of_parts {path : String} {above : List String} (is : parts path = above ++ [name])
    (relative : isAbsolute path = false) (here : name ≠ ".") (up : name ≠ "..") :
    fileName? path = some name := by
  have last : (steps path).getLast? = some name := by
    rw [steps, is]
    cases above with
    | nil => simp [relative]
    | cons first others => simp [relative, here, List.getLast?_cons]
  rw [fileName?, last]
  split
  · simp_all
  · simp_all
  · rfl

end

/-- A path that names a file. -/
def Named (path name : String) : Prop := fileName? path = some name ∧ IsName name

variable {directory path name : String}

theorem Named.isName_document (named : Named path name) : IsName (name ++ ".json") :=
  named.2.append (by decide)

theorem Named.output_eq (named : Named path name) :
    output directory path = join directory (name ++ ".json") := by
  rw [output, named.1]
  rfl

end Ambient.Path

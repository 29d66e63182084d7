import Ambient.Command.Disk
import Ambient.Proofs.Command.Path

namespace Ambient.Disk

open Ambient.Path

variable {d d' : Disk} {l m : Location} {item : Item}

theorem lookup_cons_location (k : Location) (items : List (Location × Item)) :
    ((k, item) :: items).lookup m = if m = k then some item else items.lookup m := by
  by_cases same : m = k
  · simp [same]
  · simp [List.lookup_cons, same, beq_false_of_ne same]

theorem lookup_put (items : List (Location × Item)) : (items.filter (fun entry => entry.1 ≠ l) ++
    [(l, item)]).lookup m = if m = l then some item else items.lookup m := by
  induction items with
  | nil => rw [List.filter_nil, List.nil_append, lookup_cons_location]
  | cons entry items ih =>
    obtain ⟨k, other⟩ := entry
    by_cases replaced : k = l
    · rw [List.filter_cons_of_neg (by simp [replaced]), ih, lookup_cons_location, replaced]
      split_ifs <;> rfl
    · rw [List.filter_cons_of_pos (by simpa using replaced), List.cons_append, lookup_cons_location, ih,
        lookup_cons_location]
      split_ifs with here there
      · exact absurd (here.symm.trans there) replaced
      all_goals rfl

theorem find?_put_self (below : l ≠ []) : (d.put l item).find? l = some item := by
  rw [find?, put, lookup_put]
  simp [below]

theorem find?_put_of_ne (other : m ≠ l) : (d.put l item).find? m = d.find? m := by
  rw [find?, find?, put, lookup_put, if_neg other]

theorem find?_of_follow {part : String} (h : d.follow l part = .ok m) :
    d.find? l = some .directory := by
  unfold follow at h
  split at h
  · cases h
  · cases h
  · assumption

theorem follow_of_foldlM {part : String} {parts : List String} {start : Location}
    (h : (part :: parts).foldlM d.follow start = .ok m) :
    ∃ next, d.follow start part = .ok next ∧ parts.foldlM d.follow next = .ok m := by
  rw [List.foldlM_cons] at h
  cases step : d.follow start part with
  | error e => rw [step] at h; cases h
  | ok next => rw [step] at h; exact ⟨next, rfl, h⟩

/-- Where no directory is replaced, every path leads where it led. -/
theorem foldlM_follow_put (file : d.find? l ≠ some .directory) : ∀ {parts : List String}
    {start : Location}, parts.foldlM d.follow start = .ok m →
      parts.foldlM (d.put l item).follow start = .ok m
  | [], _, h => h
  | part :: parts, start, h => by
    obtain ⟨next, step, rest⟩ := follow_of_foldlM h
    have kept : start ≠ l := fun is => file (is ▸ find?_of_follow step)
    have same : (d.put l item).follow start part = .ok next := by
      rw [← step, follow, follow, find?_put_of_ne kept]
    rw [List.foldlM_cons, same]
    exact foldlM_follow_put file rest

/-- A path that leads somewhere is relative, and each of its parts is followed. -/
theorem locate_ok {path : String} (h : d.locate path = .ok l) :
    isAbsolute path = false ∧ (Path.parts path).foldlM d.follow [] = .ok l := by
  unfold locate at h
  split_ifs at h with zero leaves long
  exact ⟨((Bool.or_eq_false_iff).mp (Bool.not_eq_true _ ▸ leaves)).2, h⟩

theorem locate_put {path : String} (file : d.find? l ≠ some .directory)
    (h : d.locate path = .ok m) : (d.put l item).locate path = .ok m := by
  unfold locate at h ⊢
  split_ifs at h ⊢
  exact foldlM_follow_put file h

/-- Everything above a location is a directory. -/
def Above (d : Disk) (l : Location) : Prop := ∀ k, k <+: l → k ≠ l → d.find? k = some .directory

/-- Staying somewhere or going up leads to a directory, any other part to the thing of that name. -/
theorem follow_cases {part : String} (above : d.Above l) (h : d.follow l part = .ok m) :
    d.Above m ∧ ((part = "." ∨ part = "..") ∧ d.find? m = some .directory ∨
      part ≠ "." ∧ part ≠ ".." ∧ m = l ++ [part]) := by
  have here := find?_of_follow h
  unfold follow at h
  rw [here] at h
  dsimp only at h
  split_ifs at h with stay up root long
  · obtain rfl := Except.ok.inj h
    exact ⟨above, .inl ⟨.inl stay, here⟩⟩
  · obtain rfl := Except.ok.inj h
    have shorter {k : Location} (front : k <+: l.dropLast) : d.find? k = some .directory :=
      above k (front.trans (List.dropLast_prefix l)) fun is => by
        have := front.length_le
        rw [is, List.length_dropLast] at this
        exact root (List.isEmpty_iff_length_eq_zero.mpr (by omega))
    exact ⟨fun k front _ => shorter front, .inl ⟨.inr up, shorter List.prefix_rfl⟩⟩
  · obtain rfl := Except.ok.inj h
    refine ⟨fun k front other => ?_, .inr ⟨stay, up, rfl⟩⟩
    by_cases same : k = l
    · exact same ▸ here
    · exact above k ((List.prefix_concat_iff.mp front).resolve_left other) same

theorem above_of_foldlM : ∀ {parts : List String} {start : Location}, d.Above start →
    parts.foldlM d.follow start = .ok m → d.Above m
  | [], _, above, h => Except.ok.inj h ▸ above
  | part :: parts, start, above, h => by
    obtain ⟨next, step, rest⟩ := follow_of_foldlM h
    exact above_of_foldlM (follow_cases above step).1 rest

/-- A path ends with the name of what it leads to, unless that is a directory. -/
theorem last_of_locate {path : String} (h : d.locate path = .ok l) :
    d.find? l = some .directory ∨ ∃ above name, Path.parts path = above ++ [name] ∧ name ≠ "." ∧
      name ≠ ".." ∧ l.getLast? = some name := by
  obtain ⟨-, followed⟩ := locate_ok h
  have root : d.Above [] := fun k front other => absurd (List.prefix_nil.mp front) other
  rcases List.eq_nil_or_concat (Path.parts path) with none | ⟨above, name, is⟩
  · rw [none] at followed
    obtain rfl := Except.ok.inj followed
    exact .inl rfl
  · rw [List.concat_eq_append] at is
    rw [is, List.foldlM_append] at followed
    cases front : above.foldlM d.follow [] with
    | error e => rw [front] at followed; cases followed
    | ok m =>
      rw [front] at followed
      have whole : [name].foldlM d.follow m = .ok l := followed
      obtain ⟨next, step, rest⟩ := follow_of_foldlM whole
      obtain rfl : next = l := Except.ok.inj rest
      rcases (follow_cases (above_of_foldlM root front) step).2 with
        ⟨-, directory⟩ | ⟨here, up, rfl⟩
      · exact .inl directory
      · exact .inr ⟨above, name, is, here, up, List.getLast?_concat⟩

/-- Which file a path leads to, and what its bytes are. -/
theorem read_ok_iff {path text : String} : d.read path = .ok text ↔ ∃ l bytes,
    d.locate path = .ok l ∧ d.find? l = some (.file bytes) ∧ endsWithSlash path = false ∧
      String.fromUTF8? bytes = some text := by
  constructor
  · intro h
    unfold read at h
    cases located : d.locate path with
    | error e => rw [located] at h; cases h
    | ok l =>
      rw [located] at h
      simp only [bind, Except.bind] at h
      split at h
      · cases h
      · cases h
      · rename_i bytes found
        split_ifs at h with slash
        split at h
        · rename_i content decoded
          obtain rfl := Except.ok.inj h
          exact ⟨l, bytes, rfl, found, Bool.not_eq_true _ ▸ slash, decoded⟩
        · cases h
  · rintro ⟨l, bytes, located, found, plain, decoded⟩
    simp only [read, located, found, plain, decoded, bind, Except.bind, Bool.false_eq_true, if_false]
    rfl

/-- What can be read has the name of a file. -/
theorem named_of_read {path text : String} (h : d.read path = .ok text) :
    ∃ name, Named path name := by
  obtain ⟨l, bytes, located, found, -⟩ := read_ok_iff.mp h
  rcases last_of_locate located with directory | ⟨above, name, is, here, up, -⟩
  · rw [found] at directory
    cases directory
  · have mem : name ∈ Path.parts path := by simp [is]
    exact ⟨name, fileName?_of_parts is (locate_ok located).1 here up, isName_of_mem_parts mem⟩

theorem write_ok {path text : String} (h : d.write path text = (.ok (), d')) : ∃ l,
    d.locate path = .ok l ∧ d.find? l ≠ some .directory ∧ d' = d.put l (.file text.toUTF8) := by
  unfold write at h
  split at h
  · cases h
  · rename_i l located
    split_ifs at h with directory
    · cases h
    · exact ⟨l, located, fun is => directory (by rw [is]; rfl), (Prod.mk.inj h).2.symm⟩

theorem fromUTF8?_toUTF8 (text : String) : String.fromUTF8? text.toUTF8 = some text := by
  simp only [String.fromUTF8?, Option.dite_none_right_eq_some]
  exact ⟨text.isValidUTF8, rfl⟩

/-- What is written is what can be read. -/
theorem read_write {path text : String} (plain : endsWithSlash path = false)
    (h : d.write path text = (.ok (), d')) : d'.read path = .ok text := by
  obtain ⟨l, located, file, rfl⟩ := write_ok h
  have below : l ≠ [] := fun is => file (is ▸ rfl)
  exact read_ok_iff.mpr ⟨l, _, locate_put file located, find?_put_self below, plain,
    fromUTF8?_toUTF8 text⟩

/-- What is written leaves alone what lies elsewhere. -/
theorem read_write_of_ne {path other text content : String} (h : d.write path text = (.ok (), d'))
    (apart : ∀ l, d.locate path = .ok l → d.locate other ≠ .ok l) (read : d.read other = .ok content) :
    d'.read other = .ok content := by
  obtain ⟨l, located, file, rfl⟩ := write_ok h
  obtain ⟨m, bytes, there, found, plain, decoded⟩ := read_ok_iff.mp read
  have elsewhere : m ≠ l := fun is => apart l located (is ▸ there)
  exact read_ok_iff.mpr ⟨m, bytes, locate_put file there, (find?_put_of_ne elsewhere).trans found, plain,
    decoded⟩

section

variable {directory path name text : String}

/-- A document lies under its own name. -/
theorem last_of_locate_output (named : Named path name)
    (h : d.locate (output directory path) = .ok l) :
    d.find? l = some .directory ∨ l.getLast? = some (name ++ ".json") := by
  refine (last_of_locate h).imp_right ?_
  rintro ⟨above, last, is, -, -, ends⟩
  rw [named.output_eq, parts_join named.isName_document] at is
  have same : name ++ ".json" = last := by
    simpa using congrArg List.getLast? is
  exact same ▸ ends

theorem read_write_output (named : Named path name)
    (h : d.write (output directory path) text = (.ok (), d')) :
    d'.read (output directory path) = .ok text :=
  read_write (named.output_eq ▸ not_endsWithSlash_join named.isName_document) h

/-- Writing a document leaves alone every document that goes elsewhere. -/
theorem read_write_output_of_ne {other name' content : String} (named : Named path name)
    (named' : Named other name') (apart : output directory path ≠ output directory other)
    (h : d.write (output directory path) text = (.ok (), d'))
    (read : d.read (output directory other) = .ok content) :
    d'.read (output directory other) = .ok content := by
  refine read_write_of_ne h (fun l here there => ?_) read
  obtain ⟨m, bytes, located, found, -⟩ := read_ok_iff.mp read
  obtain rfl : l = m := Except.ok.inj (there.symm.trans located)
  have file : d.find? l ≠ some .directory := by simp [found]
  have first := (last_of_locate_output named here).resolve_left file
  have second := (last_of_locate_output named' there).resolve_left file
  have same := Option.some.inj (first.symm.trans second)
  exact apart (by rw [named.output_eq, named'.output_eq, same])

end

end Ambient.Disk

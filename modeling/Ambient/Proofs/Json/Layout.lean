import Ambient.Json.Printer
import Ambient.Json.Reader

namespace Ambient.Json

/-- The blanks between the parts of a text. -/
structure Layout where
  /-- The blanks in front of an item or a closing bracket, so many levels inside. -/
  line : Nat → List Char
  /-- The blanks behind a colon. -/
  space : List Char
  line_blank : ∀ level, ∀ c ∈ line level, isBlank c = true
  space_blank : ∀ c ∈ space, isBlank c = true

namespace Layout

/-- No blanks at all. -/
def compact : Layout where
  line _ := []
  space := []
  line_blank := by simp
  space_blank := by simp

/-- Every item on a line of its own. -/
def indented : Layout where
  line level := '\n' :: List.replicate (2 * level) ' '
  space := [' ']
  line_blank level c h := by
    rcases List.mem_cons.mp h with rfl | h
    · rfl
    · rw [(List.mem_replicate.mp h).2]; rfl
  space_blank c h := by rw [List.mem_singleton.mp h]; rfl

mutual

/-- The text of a value so many levels inside, in front of a given rest. -/
def lay (L : Layout) (level : Nat) : Json → List Char → List Char
  | .null, rest => 'n' :: 'u' :: 'l' :: 'l' :: rest
  | .bool b, rest => putLiteral b rest
  | .number n, rest => putNumber n rest
  | .string s, rest => putString s rest
  | .array [], rest => '[' :: ']' :: rest
  | .array (item :: items), rest =>
    '[' :: (L.line (level + 1) ++ L.lay (level + 1) item
      (L.layItems (level + 1) items (L.line level ++ ']' :: rest)))
  | .object [], rest => '\x7b' :: '\x7d' :: rest
  | .object ((key, value) :: members), rest =>
    '\x7b' :: (L.line (level + 1) ++ putString key (':' :: (L.space ++ L.lay (level + 1) value
      (L.layMembers (level + 1) members (L.line level ++ '\x7d' :: rest)))))

/-- Further items, each behind a comma. -/
def layItems (L : Layout) (level : Nat) : List Json → List Char → List Char
  | [], rest => rest
  | item :: items, rest => ',' :: (L.line level ++ L.lay level item (L.layItems level items rest))

/-- Further members, each behind a comma. -/
def layMembers (L : Layout) (level : Nat) : List (String × Json) → List Char → List Char
  | [], rest => rest
  | (key, value) :: members, rest =>
    ',' :: (L.line level ++ putString key (':' :: (L.space ++ L.lay level value
      (L.layMembers level members rest))))

end

end Layout

open Layout

mutual

theorem lay_compact (level : Nat) : ∀ (j : Json) (rest : List Char),
    compact.lay level j rest = j.put rest
  | .null, _ | .bool _, _ | .number _, _ | .string _, _ | .array [], _ | .object [], _ => by
    simp only [lay, put]
  | .array (item :: items), rest => by
    simp only [lay, put, compact, List.nil_append]
    rw [← compact, lay_compact _ item, layItems_compact _ items]
  | .object ((key, value) :: members), rest => by
    simp only [lay, put, compact, List.nil_append]
    rw [← compact, lay_compact _ value, layMembers_compact _ members]

theorem layItems_compact (level : Nat) : ∀ (items : List Json) (rest : List Char),
    compact.layItems level items rest = putItems items rest
  | [], _ => by simp only [layItems, putItems]
  | item :: items, rest => by
    simp only [layItems, putItems, compact, List.nil_append]
    rw [← compact, lay_compact _ item, layItems_compact _ items]

theorem layMembers_compact (level : Nat) : ∀ (members : List (String × Json)) (rest : List Char),
    compact.layMembers level members rest = putMembers members rest
  | [], _ => by simp only [layMembers, putMembers]
  | (key, value) :: members, rest => by
    simp only [layMembers, putMembers, compact, List.nil_append]
    rw [← compact, lay_compact _ value, layMembers_compact _ members]

end

theorem putLine_eq (level : Nat) (rest : List Char) :
    putLine level rest = indented.line level ++ rest := rfl

mutual

theorem lay_indented (level : Nat) : ∀ (j : Json) (rest : List Char),
    indented.lay level j rest = putIndented level j rest
  | .null, _ | .bool _, _ | .number _, _ | .string _, _ | .array [], _ | .object [], _ => by
    simp only [lay, putIndented]
  | .array (item :: items), rest => by
    simp only [lay, putIndented, putLine_eq]
    rw [lay_indented _ item, layItems_indented _ items]
  | .object ((key, value) :: members), rest => by
    simp only [lay, putIndented, putLine_eq]
    rw [lay_indented _ value, layMembers_indented _ members]
    rfl

theorem layItems_indented (level : Nat) : ∀ (items : List Json) (rest : List Char),
    indented.layItems level items rest = putIndentedItems level items rest
  | [], _ => by simp only [layItems, putIndentedItems]
  | item :: items, rest => by
    simp only [layItems, putIndentedItems, putLine_eq]
    rw [lay_indented _ item, layItems_indented _ items]

theorem layMembers_indented (level : Nat) : ∀ (members : List (String × Json)) (rest : List Char),
    indented.layMembers level members rest = putIndentedMembers level members rest
  | [], _ => by simp only [layMembers, putIndentedMembers]
  | (key, value) :: members, rest => by
    simp only [layMembers, putIndentedMembers, putLine_eq]
    rw [lay_indented _ value, layMembers_indented _ members]
    rfl

end

theorem compress_eq (j : Json) : j.compress = String.ofList (compact.lay 0 j []) := by
  rw [compress, lay_compact]

theorem pretty_eq (j : Json) : j.pretty = String.ofList (indented.lay 0 j []) := by
  rw [pretty, lay_indented]

end Ambient.Json

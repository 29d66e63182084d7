import Ambient.Interchange.Decode
import Ambient.Proofs.Json.ReadBack
import Ambient.Proofs.Tree.WellKinded

namespace Ambient

namespace Json

theorem lookup_cons (k key : String) (value : Json) (members : List (String × Json)) :
    ((key, value) :: members).lookup k = if k = key then some value else members.lookup k := by
  by_cases h : k = key
  · simp [h]
  · simp [List.lookup_cons, beq_eq_false_iff_ne.mpr h, h]

theorem lookup_insertMember (key : String) (value : Json) (members : List (String × Json))
    (k : String) :
    (insertMember key value members).lookup k =
      if k = key then some value else members.lookup k := by
  induction members with
  | nil => rw [insertMember, lookup_cons]
  | cons member members ih =>
    obtain ⟨l, w⟩ := member
    rw [insertMember]
    split
    · rw [lookup_cons]
    · split
      · rename_i same
        subst same
        simp only [lookup_cons]
        split <;> rfl
      · rename_i differ
        simp only [lookup_cons, ih]
        split_ifs <;> simp_all

theorem lookup_eq_none {members : List (String × Json)} {k : String}
    (h : k ∉ members.map Prod.fst) : members.lookup k = none := by
  rw [List.lookup_eq_none_iff]
  intro member hm
  rw [bne_iff_ne]
  rintro rfl
  exact h (List.mem_map_of_mem hm)

/-- A member of an object in canonical form is in canonical form. -/
theorem lookup_canonicalMembers (members : List (String × Json))
    (distinct : (members.map Prod.fst).Nodup) (ordered : List (String × Json)) (k : String) :
    (canonicalMembers ordered members).lookup k =
      ((members.lookup k).map canonical).or (ordered.lookup k) := by
  induction members generalizing ordered with
  | nil => simp [canonicalMembers]
  | cons member members ih =>
    obtain ⟨key, value⟩ := member
    rw [List.map_cons, List.nodup_cons] at distinct
    rw [canonicalMembers, ih distinct.2, lookup_insertMember, lookup_cons]
    by_cases h : k = key
    · subst h
      simp [lookup_eq_none distinct.1]
    · simp [h]

theorem depth_lt_of_lookup {members : List (String × Json)} {key : String} {value : Json}
    (h : members.lookup key = some value) : value.depth < (object members).depth := by
  rw [depth, Nat.lt_succ_iff]
  induction members with
  | nil => simp at h
  | cons member members ih =>
    obtain ⟨k, v⟩ := member
    rw [depthMembers]
    rw [lookup_cons] at h
    split at h
    · obtain rfl := Option.some.inj h
      exact Nat.le_max_left _ _
    · exact Nat.le_trans (ih h) (Nat.le_max_right _ _)

theorem depth_lt_of_mem {items : List Json} {item : Json} (h : item ∈ items) :
    item.depth < (array items).depth := by
  rw [depth, Nat.lt_succ_iff]
  induction items with
  | nil => simp at h
  | cons other items ih =>
    rw [depthItems]
    rcases List.mem_cons.mp h with rfl | h
    · exact Nat.le_max_left _ _
    · exact Nat.le_trans (ih h) (Nat.le_max_right _ _)

end Json

namespace Part

/-- The value of a part in the interchange form, in canonical form. -/
def value? (p : Part) : Option Json := p.encoded.map fun member => member.2.canonical

theorem key_of_encoded {p : Part} {member : String × Json} (h : p.encoded = some member) :
    member.1 = p.key := by
  cases p with
  | text? | node? | list? | modifiers =>
    obtain ⟨value, -, rfl⟩ := Option.map_eq_some_iff.mp h
    rfl
  | _ =>
    obtain rfl := Option.some.inj h
    rfl

theorem keys_sublist (parts : List Part) :
    ((parts.filterMap encoded).map Prod.fst).Sublist (parts.map key) := by
  induction parts with
  | nil => exact .slnil
  | cons p parts ih =>
    cases h : p.encoded with
    | none => rw [List.filterMap_cons_none h]; exact ih.cons _
    | some member =>
      rw [List.filterMap_cons_some h, List.map_cons, List.map_cons, key_of_encoded h]
      exact ih.cons_cons _

theorem lookup_encoded {parts : List Part} (distinct : (parts.map key).Nodup) {p : Part}
    (hp : p ∈ parts) : (parts.filterMap encoded).lookup p.key = p.encoded.map Prod.snd := by
  induction parts with
  | nil => simp at hp
  | cons q parts ih =>
    rw [List.map_cons, List.nodup_cons] at distinct
    have others : (parts.filterMap encoded).lookup q.key = none :=
      Json.lookup_eq_none fun h => distinct.1 ((keys_sublist parts).mem h)
    rcases List.mem_cons.mp hp with rfl | hp
    · cases h : p.encoded with
      | none => rw [List.filterMap_cons_none h, others]; rfl
      | some member =>
        rw [List.filterMap_cons_some h, ← key_of_encoded h, Json.lookup_cons, if_pos rfl]
        rfl
    · have differ : p.key ≠ q.key := by
        intro same
        exact distinct.1 (same ▸ List.mem_map_of_mem hp)
      cases h : q.encoded with
      | none => rw [List.filterMap_cons_none h, ih distinct.2 hp]
      | some member =>
        have other : p.key ≠ member.1 := key_of_encoded h ▸ differ
        rw [List.filterMap_cons_some h, Json.lookup_cons, if_neg other, ih distinct.2 hp]

end Part

namespace Node

/-- The parts of a node have keys of their own. -/
theorem keys_nodup (n : Node) : ("Kind" :: n.parts.map Part.key).Nodup := by
  cases n <;> simp [parts, Part.key]

/-- The members of the interchange form of a node, in the order of their keys. -/
def valueMembers (n : Node) : List (String × Json) :=
  Json.canonicalMembers [] (("Kind", .nat n.kind.code) :: n.parts.filterMap Part.encoded)

theorem toValue_eq (n : Node) : n.toValue = .object n.valueMembers := by
  rw [toValue, encode_eq, encodeObject, List.filterMap_map]
  rfl

theorem lookup_valueMembers (n : Node) (key : String) :
    n.valueMembers.lookup key =
      ((("Kind", .nat n.kind.code) :: n.parts.filterMap Part.encoded).lookup key).map
        Json.canonical := by
  have distinct : ((("Kind", Json.nat n.kind.code) :: n.parts.filterMap Part.encoded).map
      Prod.fst).Nodup :=
    n.keys_nodup.sublist ((Part.keys_sublist n.parts).cons_cons "Kind")
  rw [valueMembers, Json.lookup_canonicalMembers _ distinct]
  simp

theorem lookup_kind (n : Node) :
    n.valueMembers.lookup "Kind" = some (.number (.integer n.kind.code)) := by
  rw [lookup_valueMembers, Json.lookup_cons, if_pos rfl]
  rfl

theorem lookup_part {n : Node} {p : Part} (hp : p ∈ n.parts) :
    n.valueMembers.lookup p.key = p.value? := by
  have distinct := n.keys_nodup
  rw [List.nodup_cons] at distinct
  have differ : p.key ≠ "Kind" := by
    intro same
    exact distinct.1 (same ▸ List.mem_map_of_mem hp)
  rw [lookup_valueMembers, Json.lookup_cons, if_neg differ, Part.lookup_encoded distinct.2 hp,
    Part.value?, Option.map_map]
  rfl

end Node

end Ambient

import Ambient.Proofs.Tree.Height
import Ambient.Proofs.Tree.WellKinded

namespace Ambient

/-- Whether nodes of a shape take up a level: statements, and types that are not bound to the
signature or the tuple in which they stand. -/
def Shape.takesLevel (s : Shape) : Bool :=
  (Target.category .statement).shapes.contains s ||
    (Target.category .type).shapes.contains s &&
      !([.typePredicate, .optionalType, .restType, .namedTupleMember].contains s)

/-- Whether what stands in a place may take up a level there. -/
def Target.takesLevel : Target → Bool
  | .category .statement | .category .moduleBody | .category .type => true
  | _ => false

namespace Node

/-- The level that a node takes up. -/
def level (n : Node) : Nat := if n.shape.takesLevel then 1 else 0

/-- The level that a node takes up in its place. -/
def levelIn (t : Target) (n : Node) : Nat := if t.takesLevel then n.level else 0

theorem level_le_one (n : Node) : n.level ≤ 1 := by
  unfold level
  split <;> decide

theorem levelIn_le (t : Target) (n : Node) : n.levelIn t ≤ n.level := by
  unfold levelIn
  split
  · exact Nat.le_refl _
  · exact Nat.zero_le _

/-- How many pairs of brackets stand at the end of a type. -/
def chain : Node → Nat
  | .arrayType element => element.chain + 1
  | .indexedAccessType object _ => object.chain + 1
  | _ => 0

end Node

/-- How the brackets behind a type are counted. -/
structure Tally where
  /-- The levels that a pair of brackets takes up around the type in front of it. -/
  front : Nat
  /-- The levels up to the brackets at the end of a type. -/
  place : Node → Nat

namespace Node

variable {a b : Tally} {n : Node}

/-- Whether the levels of a node are those of the nodes right below it, each in its place. -/
def isPlain : Node → Bool
  | .arrayType _ | .indexedAccessType .. | .unionType _ | .intersectionType _
  | .qualifiedName .. => false
  | _ => true

/-- The nodes right below a node, each with the levels on the way to it. -/
def ways (a : Tally) : Node → List (Nat × Node)
  | .arrayType element => [(a.front, element)]
  | .indexedAccessType object index => [(a.front, object),
      (a.place (.indexedAccessType object index) + index.levelIn (.category .type), index)]
  | .unionType types | .intersectionType types => types.map (0, ·)
  | .qualifiedName left right => [(1, left), (1, right)]
  | n => n.children.map fun c => (c.2.levelIn c.1, c.2)

/-- The levels that end at a node. -/
def own (a : Tally) : Node → Nat
  | .qualifiedName .. => 1
  | n => if n.isSuffix then a.place n else 0

theorem ways_of_isPlain (plain : n.isPlain = true) :
    n.ways a = n.children.map fun c => (c.2.levelIn c.1, c.2) := by
  cases n <;> first | rfl | cases plain

/-- Every way leads to a node right below. -/
theorem exists_child_of_way {w : Nat × Node} (h : w ∈ n.ways a) :
    ∃ t, (t, w.2) ∈ n.children := by
  by_cases plain : n.isPlain = true
  · rw [ways_of_isPlain plain] at h
    obtain ⟨c, mem, rfl⟩ := List.mem_map.mp h
    exact ⟨c.1, mem⟩
  · cases n with
    | arrayType element =>
      obtain rfl := List.mem_singleton.mp h
      exact ⟨_, List.mem_singleton.mpr rfl⟩
    | indexedAccessType object index | qualifiedName left right =>
      simp only [ways, List.mem_cons, List.not_mem_nil, or_false] at h
      rcases h with rfl | rfl
      · exact ⟨_, List.mem_cons_self⟩
      · exact ⟨_, List.mem_cons_of_mem _ List.mem_cons_self⟩
    | unionType types | intersectionType types =>
      obtain ⟨m, mem, rfl⟩ := List.mem_map.mp h
      exact ⟨.category .type, by simpa [children, parts, Part.places] using mem⟩
    | _ => exact absurd rfl plain

/-- The levels of a tree on the way that takes up the most. -/
def tally (a : Tally) (n : Node) : Nat :=
  ((n.ways a).attach.map fun w => w.1.1 + w.1.2.tally a).foldr max (n.own a)
termination_by sizeOf n
decreasing_by
  obtain ⟨t, mem⟩ := exists_child_of_way w.2
  exact sizeOf_child mem

/-- All levels of a tree. -/
def levels : Node → Nat := tally ⟨1, fun _ => 1⟩

/-- The levels of a tree, of which the brackets behind a type are not levels of that type. -/
def openLevels : Node → Nat := tally ⟨0, chain⟩

theorem foldr_max_le {l : List Nat} {least bound : Nat} :
    l.foldr max least ≤ bound ↔ least ≤ bound ∧ ∀ x ∈ l, x ≤ bound := by
  induction l with
  | nil => simp
  | cons x l ih =>
    rw [List.foldr_cons, Nat.max_le, ih, List.forall_mem_cons]
    exact and_left_comm

theorem tally_le {bound : Nat} :
    n.tally a ≤ bound ↔ n.own a ≤ bound ∧ ∀ w ∈ n.ways a, w.1 + w.2.tally a ≤ bound := by
  have attached : (∀ x ∈ (n.ways a).attach.map fun w => w.1.1 + w.1.2.tally a, x ≤ bound) ↔
      ∀ w ∈ n.ways a, w.1 + w.2.tally a ≤ bound := by
    rw [List.forall_mem_map]
    exact ⟨fun h w mem => h ⟨w, mem⟩ (List.mem_attach _ _), fun h w _ => h w.1 w.2⟩
  rw [tally, foldr_max_le, attached]

theorem own_le_tally : n.own a ≤ n.tally a := (tally_le.mp (Nat.le_refl _)).1

theorem way_le_tally {w : Nat × Node} (h : w ∈ n.ways a) : w.1 + w.2.tally a ≤ n.tally a :=
  (tally_le.mp (Nat.le_refl _)).2 w h

theorem tally_le_of_plain {bound : Nat} (plain : n.isPlain = true)
    (below : ∀ c ∈ n.children, c.2.levelIn c.1 + c.2.tally a ≤ bound) : n.tally a ≤ bound := by
  refine tally_le.mpr ⟨?_, ?_⟩
  · cases n <;> first | exact Nat.zero_le _ | cases plain
  · rw [ways_of_isPlain plain]
    exact List.forall_mem_map.mpr below

theorem tally_qualifiedName_le {left right : Node} {bound : Nat} (hleft : left.tally a ≤ bound)
    (hright : right.tally a ≤ bound) : (qualifiedName left right).tally a ≤ bound + 1 := by
  refine tally_le.mpr ⟨Nat.le_add_left 1 bound, fun w hw => ?_⟩
  simp only [ways, List.mem_cons, List.not_mem_nil, or_false] at hw
  rcases hw with rfl | rfl
  · show 1 + left.tally a ≤ _
    omega
  · show 1 + right.tally a ≤ _
    omega

/-- In a tree without brackets behind a type it does not matter how these are counted. -/
theorem tally_le_of_no_brackets (n : Node) (none : n.brackets = 0) : n.tally a ≤ n.tally b := by
  have no_suffix : n.isSuffix = false := by
    have own : n.ownBrackets ≤ n.brackets := cost_le_costliest
    rw [none, ownBrackets] at own
    cases suffix : n.isSuffix with
    | false => rfl
    | true => simp [suffix] at own
  have same : n.own a = n.own b ∧ n.ways a = n.ways b := by
    cases n <;> first | exact ⟨rfl, rfl⟩ | cases no_suffix
  refine tally_le.mpr ⟨Nat.le_trans (Nat.le_of_eq same.1) own_le_tally, fun w hw => ?_⟩
  obtain ⟨t, mem⟩ := exists_child_of_way hw
  have below : n.ownBrackets + w.2.brackets ≤ n.brackets := costliest_child mem
  have inner := tally_le_of_no_brackets w.2 (by omega)
  exact Nat.le_trans (Nat.add_le_add_left inner _) (way_le_tally (same.2 ▸ hw))
termination_by sizeOf n
decreasing_by exact sizeOf_child mem

theorem levels_eq_openLevels (none : n.brackets = 0) : n.levels = n.openLevels :=
  Nat.le_antisymm (tally_le_of_no_brackets n none) (tally_le_of_no_brackets n none)

end Node

end Ambient

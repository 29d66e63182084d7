import Ambient.Proofs.Interchange.Members

namespace Ambient

namespace Node

/-- Whether a node puts brackets behind a type. -/
def isSuffix : Node → Bool
  | .arrayType _ | .indexedAccessType _ _ => true
  | _ => false

/-- The most that the nodes on a path from the root of a tree cost. -/
def costliest (cost : Node → Nat) (n : Node) : Nat :=
  cost n + (n.children.attach.map fun c => c.1.2.costliest cost).foldr max 0
termination_by sizeOf n
decreasing_by exact sizeOf_child c.2

def ownHeight (n : Node) : Nat := if n.isSuffix then 0 else 1

def ownBrackets (n : Node) : Nat := if n.isSuffix then 1 else 0

/-- The nodes on the longest path of a tree, those for brackets left out. -/
def height : Node → Nat := costliest ownHeight

/-- The most nodes for brackets on a path of a tree. -/
def brackets : Node → Nat := costliest ownBrackets

section

variable {cost : Node → Nat} {n : Node}

theorem costliest_le {bound : Nat} (below : ∀ c ∈ n.children, c.2.costliest cost ≤ bound) :
    n.costliest cost ≤ cost n + bound := by
  have all : ∀ l : List {c // c ∈ n.children},
      (l.map fun c => c.1.2.costliest cost).foldr max 0 ≤ bound := by
    intro l
    induction l with
    | nil => exact Nat.zero_le _
    | cons c l ih => exact Nat.max_le.mpr ⟨below c.1 c.2, ih⟩
  rw [costliest]
  exact Nat.add_le_add_left (all _) _

theorem costliest_child {c : Target × Node} (h : c ∈ n.children) :
    cost n + c.2.costliest cost ≤ n.costliest cost := by
  have all : ∀ l : List {c // c ∈ n.children}, ⟨c, h⟩ ∈ l →
      c.2.costliest cost ≤ (l.map fun c => c.1.2.costliest cost).foldr max 0 := by
    intro l mem
    induction mem with
    | head => exact Nat.le_max_left _ _
    | tail _ _ ih => exact Nat.le_trans ih (Nat.le_max_right _ _)
  rw [costliest.eq_1 cost n]
  exact Nat.add_le_add_left (all _ (List.mem_attach _ _)) _

theorem cost_le_costliest : cost n ≤ n.costliest cost := by
  rw [costliest]
  exact Nat.le_add_right _ _

end

end Node

namespace Json

theorem depthItems_le {items : List Json} {bound : Nat} (h : ∀ v ∈ items, v.depth ≤ bound) :
    depthItems items ≤ bound := by
  induction items with
  | nil => exact Nat.zero_le _
  | cons v items ih =>
    obtain ⟨first, others⟩ := List.forall_mem_cons.mp h
    exact Nat.max_le.mpr ⟨first, ih others⟩

theorem depthMembers_le {members : List (String × Json)} {bound : Nat}
    (h : ∀ m ∈ members, m.2.depth ≤ bound) : depthMembers members ≤ bound := by
  induction members with
  | nil => exact Nat.zero_le _
  | cons m members ih =>
    obtain ⟨first, others⟩ := List.forall_mem_cons.mp h
    exact Nat.max_le.mpr ⟨first, ih others⟩

theorem depth_lt_of_member {members : List (String × Json)} {m : String × Json} (h : m ∈ members) :
    m.2.depth < (object members).depth := by
  rw [depth, Nat.lt_succ_iff]
  induction members with
  | nil => cases h
  | cons other members ih =>
    rw [depthMembers]
    rcases List.mem_cons.mp h with rfl | h
    · exact Nat.le_max_left _ _
    · exact Nat.le_trans (ih h) (Nat.le_max_right _ _)

end Json

theorem Part.depth_encoded {p : Part} {m : String × Json} (h : p.encoded = some m) {bound : Nat}
    (below : ∀ c ∈ p.places, c.2.encode.depth ≤ bound) : m.2.depth ≤ bound + 1 := by
  have items {place : Target} {ns : List Node}
      (below : ∀ c ∈ ns.map (place, ·), c.2.encode.depth ≤ bound) :
      (Json.array (Node.encodeList ns)).depth ≤ bound + 1 := by
    rw [Json.depth, Node.encodeList_eq]
    refine Nat.succ_le_succ (Json.depthItems_le ?_)
    rw [List.forall_mem_map] at below ⊢
    exact below
  cases p with
  | node key place value =>
    obtain rfl := Option.some.inj h
    exact Nat.le_succ_of_le (below (place, value) (List.mem_singleton.mpr rfl))
  | node? key place value =>
    obtain ⟨v, hv, rfl⟩ := Option.map_eq_some_iff.mp h
    cases value with
    | none => cases hv
    | some n =>
      obtain rfl := Option.some.inj (show some n.encode = some v from hv)
      exact Nat.le_succ_of_le (below (place, n) (List.mem_singleton.mpr rfl))
  | list key place values =>
    obtain rfl := Option.some.inj h
    exact items below
  | list? key place values | modifiers values =>
    obtain ⟨v, hv, rfl⟩ := Option.map_eq_some_iff.mp h
    cases values with
    | none => cases hv
    | some ns =>
      obtain rfl := Option.some.inj (show some (Node.encodeList ns) = some v from hv)
      exact items below
  | text? key value =>
    obtain ⟨v, hv, rfl⟩ := Option.map_eq_some_iff.mp h
    exact Nat.zero_le _
  | _ =>
    obtain rfl := Option.some.inj h
    exact Nat.zero_le _

theorem Part.encoded_of_place {p : Part} {c : Target × Node} (h : c ∈ p.places) :
    ∃ m, p.encoded = some m ∧ c.2.encode.depth ≤ m.2.depth := by
  have item {place : Target} {ns : List Node} (h : c ∈ ns.map (place, ·)) :
      c.2.encode.depth ≤ (Json.array (Node.encodeList ns)).depth := by
    obtain ⟨n, hn, rfl⟩ := List.mem_map.mp h
    rw [Node.encodeList_eq]
    exact Nat.le_of_lt (Json.depth_lt_of_mem (List.mem_map_of_mem hn))
  cases p with
  | node key place value =>
    obtain rfl := List.mem_singleton.mp h
    exact ⟨_, rfl, Nat.le_refl _⟩
  | node? key place value =>
    cases value with
    | none => cases h
    | some n =>
      obtain rfl := List.mem_singleton.mp h
      exact ⟨_, congrArg (Member.node? key) (Node.encode?.eq_2 n), Nat.le_refl _⟩
  | list key place values => exact ⟨_, rfl, item h⟩
  | list? key place values | modifiers values =>
    cases values with
    | none => cases h
    | some ns => exact ⟨_, congrArg (Member.list? _) (Node.encodeList?.eq_2 ns), item h⟩
  | _ => cases h

namespace Node

/-- A node nests deeper than each of its children. -/
theorem depth_encode_child {n : Node} {c : Target × Node} (h : c ∈ n.children) :
    c.2.encode.depth < n.encode.depth := by
  obtain ⟨p, hp, hc⟩ := List.mem_flatMap.mp h
  obtain ⟨m, encoded, deep⟩ := Part.encoded_of_place hc
  rw [encode_eq n, encodeObject]
  have member : m ∈ (n.parts.map Part.encoded).filterMap id :=
    List.mem_filterMap.mpr ⟨some m, List.mem_map.mpr ⟨p, hp, encoded⟩, rfl⟩
  exact Nat.lt_of_le_of_lt deep (Json.depth_lt_of_member (List.mem_cons_of_mem _ member))

/-- A node nests its parts in itself and, if they are lists, in an array. -/
theorem depth_encode_le {n : Node} {bound : Nat}
    (below : ∀ c ∈ n.children, c.2.encode.depth ≤ bound) :
    n.encode.depth ≤ 2 * n.ownHeight + n.ownBrackets + bound := by
  unfold ownHeight ownBrackets
  split
  · rename_i suffix
    have kind (k : Kind) : (Json.nat k.code).depth = 0 := rfl
    cases n with
    | arrayType element =>
      have inner : element.encode.depth ≤ bound := below _ (List.mem_singleton.mpr rfl)
      rw [encode_eq]
      simp only [encodeObject, parts, Part.encoded, Member.node, List.map_cons,
        List.map_nil, List.filterMap_cons, id, List.filterMap_nil, Json.depth, Json.depthMembers,
        kind]
      omega
    | indexedAccessType object index =>
      have object_le : object.encode.depth ≤ bound :=
        below (.category .type, object) (by simp [children, parts, Part.places])
      have index_le : index.encode.depth ≤ bound :=
        below (.category .type, index) (by simp [children, parts, Part.places])
      rw [encode_eq]
      simp only [encodeObject, parts, Part.encoded, Member.node, List.map_cons,
        List.map_nil, List.filterMap_cons, id, List.filterMap_nil, Json.depth, Json.depthMembers,
        kind]
      omega
    | _ => cases suffix
  · rw [encode_eq, encodeObject, Json.depth]
    have members : Json.depthMembers
        (("Kind", .nat n.kind.code) :: (n.parts.map Part.encoded).filterMap id) ≤ bound + 1 := by
      refine Json.depthMembers_le (List.forall_mem_cons.mpr ⟨Nat.zero_le _, ?_⟩)
      intro m hm
      obtain ⟨x, hx, eq⟩ := List.mem_filterMap.mp hm
      obtain ⟨p, hp, rfl⟩ := List.mem_map.mp hx
      exact Part.depth_encoded eq fun c hc => below c (List.mem_flatMap.mpr ⟨p, hp, hc⟩)
    omega

/-- The interchange form nests at most two levels for a node, and one for brackets. -/
theorem depth_encode (n : Node) : n.encode.depth ≤ 2 * n.height + n.brackets := by
  have least_height : n.ownHeight ≤ n.height := cost_le_costliest
  have least_brackets : n.ownBrackets ≤ n.brackets := cost_le_costliest
  have below : ∀ c ∈ n.children,
      c.2.encode.depth ≤ 2 * (n.height - n.ownHeight) + (n.brackets - n.ownBrackets) := by
    intro c h
    have ih := depth_encode c.2
    have tall : n.ownHeight + c.2.height ≤ n.height := costliest_child h
    have bracketed : n.ownBrackets + c.2.brackets ≤ n.brackets := costliest_child h
    omega
  have whole := depth_encode_le below
  omega
termination_by sizeOf n
decreasing_by exact sizeOf_child h

end Node

end Ambient

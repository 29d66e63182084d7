import Ambient.Proofs.Interchange.Normal

namespace Ambient

/-- What accepts a kind has a shape for it. -/
theorem Target.exists_shape {t : Target} {k : Kind} (accepted : t.accepts k = true) :
    ∃ s ∈ t.shapes, s.accepts k = true := by
  cases t with
  | shape s => exact ⟨s, List.mem_singleton_self s, accepted⟩
  | category c =>
    obtain ⟨entry, mem, accepted⟩ := List.any_eq_true.mp accepted
    exact ⟨entry.2, List.mem_map_of_mem mem, accepted⟩

/-- Every shape may stand where any node may. -/
theorem Shape.mem_shapes_node (s : Shape) : s ∈ (Target.category .node).shapes := by
  cases s <;> decide

theorem Shape.node_accepts {s : Shape} {k : Kind} (accepted : s.accepts k = true) :
    (Target.category .node).accepts k = true := by
  obtain ⟨entry, mem, rfl⟩ := List.mem_map.mp s.mem_shapes_node
  exact List.any_eq_true.mpr ⟨entry, mem, accepted⟩

section

variable {t : Target} {v : Json} {k : Kind}

/-- At every level of a document the same is read for a target as for any node. -/
theorem readNode_of_accepts (stated : readKind v = .ok k) (accepted : t.accepts k = true)
    (levels : Nat) : readNode levels t v = readNode levels (.category .node) v := by
  obtain ⟨s, mem, accepts⟩ := Target.exists_shape accepted
  cases levels with
  | zero => rfl
  | succ levels =>
    rw [readNode, readNode, Target.shapeOf_eq mem accepts stated,
      Target.shapeOf_eq s.mem_shapes_node accepts stated]

theorem decode_of_not_accepts (stated : readKind v = .ok k) (refused : t.accepts k = false) :
    decode t v = .error (.unexpectedKind k t.name) := by
  rw [decode, decodeKind_eq stated]
  exact if_neg (Bool.eq_false_iff.mp refused)

/-- A value that states a kind is decoded for whatever accepts this kind as it is for any node, to a
tree of the one shape for this kind or with the same error. What does not accept the kind refuses it,
whatever else the value holds. -/
theorem decode_dispatch (stated : readKind v = .ok k) :
    (t.accepts k = true → decode t v = decode (.category .node) v ∧
      ∀ n, decode t v = .ok n → n.kind = k ∧ n.shape ∈ t.shapes ∧
        ∀ s : Shape, s.accepts k = true → n.shape = s) ∧
    (t.accepts k = false → decode t v = .error (.unexpectedKind k t.name)) := by
  refine ⟨fun accepted => ⟨?_, fun n decoded => ?_⟩, decode_of_not_accepts stated⟩
  · obtain ⟨s, -, accepts⟩ := Target.exists_shape accepted
    rw [decode_of_accepts stated accepted, decode_of_accepts stated (Shape.node_accepts accepts),
      readNode_of_accepts stated accepted]
  · rw [decode_of_accepts stated accepted] at decoded
    cases read : readNode (v.depth + 1) t v with
    | error e => rw [read] at decoded; cases decoded
    | ok m =>
      rw [read] at decoded
      obtain rfl := Except.ok.inj decoded
      have kind := Node.kind_of_readNode stated read
      obtain ⟨here, -⟩ := Node.wellKinded_of_readNode read
      exact ⟨kind, here.shape_mem, fun s accepts =>
        Shape.accepts_unique here.kind_accepted (kind ▸ accepts)⟩

end

/-- A type alias is a statement and no type; its name is a number, which is found in the same way. -/
def misnamedAlias : Json :=
  .object [("Kind", .nat Kind.typeAliasDeclaration.code), ("Name", .nat 3)]

theorem decode_dispatch_misnamedAlias :
    decode (.category .statement) misnamedAlias = decode (.category .node) misnamedAlias ∧
    decode (.category .type) misnamedAlias =
      .error (.unexpectedKind .typeAliasDeclaration "TypeNode") := by
  have stated : readKind misnamedAlias = .ok .typeAliasDeclaration := rfl
  exact ⟨((decode_dispatch stated).1 (by decide)).1, (decode_dispatch stated).2 (by decide)⟩

end Ambient

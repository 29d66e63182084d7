import Ambient.Proofs.Level.Room
import Ambient.Proofs.Seat.Type

namespace Ambient

namespace Node

variable {d d' : Nat} {n : Node}

/-- Terms next to each other take up no level. -/
theorem Inner.terms {types : List Node} (h : ∀ m ∈ types, m.Inner d) {join : List Node → Node}
    (joins : join = .unionType ∨ join = .intersectionType) : (join types).Inner d := by
  have parts (a : Tally) : (join types).ways a = types.map (0, ·) ∧ (join types).own a = 0 := by
    rcases joins with rfl | rfl <;> exact ⟨rfl, rfl⟩
  have below {a : Tally} {bound : Nat} (each : ∀ m ∈ types, m.tally a ≤ bound) :
      (join types).tally a ≤ bound := by
    obtain ⟨ways, own⟩ := parts a
    refine tally_le.mpr ⟨own ▸ Nat.zero_le _, ways ▸ List.forall_mem_map.mpr fun m mem => ?_⟩
    exact (Nat.zero_add _).symm ▸ each m mem
  exact ⟨below fun m mem => (h m mem).openLevels_le, below fun m mem => (h m mem).levels_le⟩

/-- A type behind which brackets may stand, where `d'` of `d` levels are left. -/
structure Suffixed (d d' : Nat) (n : Node) : Prop where
  chain_le : n.chain + d' ≤ d
  openLevels_le : n.openLevels ≤ d
  levels_le : n.levels ≤ n.chain + triangle d

theorem Fits.suffixed (h : n.Fits 0 d) (plain : n.isPlain = true) : n.Suffixed d d := by
  have open_le := h.openLevels_le
  have levels_le := h.levels_le
  have none : n.chain = 0 := by cases n <;> first | rfl | cases plain
  exact ⟨by omega, by omega, by omega⟩

theorem Suffixed.inner (h : n.Suffixed d d') : n.Inner d := by
  have chain_le := h.chain_le
  have levels_le := h.levels_le
  exact ⟨h.openLevels_le, by omega⟩

theorem Suffixed.arrayType (h : n.Suffixed d (d' + 1)) : n.arrayType.Suffixed d d' := by
  have chain_le := h.chain_le
  have chain : n.arrayType.chain = n.chain + 1 := rfl
  refine ⟨by omega, tally_le.mpr ⟨?_, ?_⟩, tally_le.mpr ⟨?_, ?_⟩⟩
  · show n.chain + 1 ≤ d
    omega
  · exact List.forall_mem_singleton.mpr ((Nat.zero_add _).symm ▸ h.openLevels_le)
  · show 1 ≤ _
    omega
  · have levels_le := h.levels_le
    refine List.forall_mem_singleton.mpr ?_
    show 1 + n.levels ≤ _
    omega

theorem Suffixed.indexedAccessType {index : Node} (h : n.Suffixed d (d' + 1))
    (fits : index.Fits index.level d') : (n.indexedAccessType index).Suffixed d d' := by
  have chain_le := h.chain_le
  have chain : (n.indexedAccessType index).chain = n.chain + 1 := rfl
  refine ⟨by omega, tally_le.mpr ⟨?_, ?_⟩, tally_le.mpr ⟨?_, ?_⟩⟩
  · show n.chain + 1 ≤ d
    omega
  · refine List.forall_mem_cons.mpr ⟨(Nat.zero_add _).symm ▸ h.openLevels_le, ?_⟩
    refine List.forall_mem_singleton.mpr ?_
    have index_le := fits.openLevels_le
    show n.chain + 1 + index.level + index.openLevels ≤ d
    omega
  · show 1 ≤ _
    omega
  · have levels_le := h.levels_le
    have index_le := fits.levels_le
    have fewer := triangle_mono (show d' ≤ d by omega)
    refine List.forall_mem_cons.mpr ⟨?_, List.forall_mem_singleton.mpr ?_⟩
    · show 1 + n.levels ≤ _
      omega
    · show 1 + index.level + index.levels ≤ _
      omega

end Node

namespace Grammar

open Rule Node Ensures

variable {d : Nat}

/-- A name has as many levels as dots, each of which opens one while the name is read. -/
theorem entityName_fits :
    entityName.Ensures d fun n => n.level = 0 ∧ ∀ a, n.tally a ≤ d := by
  have leaf (a : Tally) (text : String) : (Node.identifier text none).tally a = 0 :=
    Nat.le_zero.mp (tally_le_of_plain rfl nofun)
  refine bind identifierOf_ensures ?_
  rintro first ⟨text, is⟩
  refine (climb (P := fun d' n => n.level = 0 ∧ ∀ a, d' + n.tally a ≤ d) ?_ fun d' left => ?_).imp ?_
  · subst is
    exact ⟨rfl, fun a => (leaf a text).symm ▸ Nat.le_refl d⟩
  · refine step fun _ => bind identifierOf_ensures ?_
    rintro right ⟨text, rfl⟩
    refine pure ⟨_, rfl, fun before => ⟨rfl, fun a => ?_⟩⟩
    have before_le := before.2 a
    have right_le : (Node.identifier text none).tally a ≤ left.tally a := leaf a text ▸ Nat.zero_le _
    have le := tally_qualifiedName_le (Nat.le_refl (left.tally a)) right_le
    omega
  · rintro n ⟨d', -, flat, le⟩
    exact ⟨flat, fun a => Nat.le_trans (Nat.le_add_left _ _) (le a)⟩

instance : Heeds .room .bare d entityName := by
  refine ⟨entityName_fits.imp fun n ⟨flat, le⟩ => Regime.Holds.node.mpr ?_⟩
  have fits : n.Fits 0 d :=
    ⟨(Nat.zero_add _).symm ▸ le _, (Nat.zero_add _).symm ▸ Nat.le_trans (le _) (le_triangle d)⟩
  exact fits.weaken (Nat.le_of_eq flat)

section

variable {type : Rule Nat Node} [Balanced type] [heeds : ∀ d, Heeds .room .bare d type]

theorem postfixType_fits (d : Nat) : (postfixType type).Ensures d (Inner d) := by
  refine bind (primaryType_ensures (R := .room)) fun first ⟨fits, whole⟩ => ?_
  have plain := (Bool.and_eq_true_iff.mp whole).1
  refine (climb (P := fun d' n => n.Suffixed d d') (Fits.suffixed fits plain) fun d' element => ?_).imp ?_
  · refine step fun _ => step fun _ => ite ?_ ?_
    · exact pure ⟨_, rfl, Suffixed.arrayType⟩
    · refine next (R := .room) fun index holds => step fun _ => pure ⟨_, rfl, fun before => ?_⟩
      exact before.indexedAccessType (Regime.Holds.node.mp holds)
  · rintro n ⟨d', -, suffixed⟩
    exact suffixed.inner

/-- Terms take up no levels but their own, and an operator leaves one to its operand. -/
theorem unionType_fits (d : Nat) : (unionType type).Ensures d (Inner d) := by
  have operators : (operatorType type).Ensures d (Inner d) :=
    operatorType_ensures postfixType_fits (fun d k n inner => ?_) d
  · exact terms_ensure (terms_ensure operators (fun _ => id) fun _ each => .terms each (.inr rfl))
      (fun _ => id) fun _ each => .terms each (.inl rfl)
  · have operand : Regime.room.Holds .bare (d + 1) n := Regime.Holds.node.mpr inner.fits
    exact Fits.inner (Regime.made_of_parts (R := .room) (n := .typeOperator k n) ⟨trivial, operand, trivial⟩)

end

end Grammar

instance : Regime.room.Typed where
  entityName _ := inferInstance
  type := Grammar.heeds_type fun _ _ _ d => (Grammar.unionType_fits d).imp fun _ inner =>
    Regime.Holds.node.mpr inner.fits

end Ambient

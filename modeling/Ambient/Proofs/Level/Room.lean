import Ambient.Proofs.Seat.Rule

namespace Ambient

/-- The sum of the numbers up to `d`. -/
def triangle : Nat → Nat
  | 0 => 0
  | d + 1 => triangle d + (d + 1)

theorem triangle_mono {d d' : Nat} (le : d ≤ d') : triangle d ≤ triangle d' := by
  induction le with
  | refl => exact Nat.le_refl _
  | step _ ih => exact Nat.le_trans ih (Nat.le_add_right _ _)

theorem two_mul_triangle (d : Nat) : 2 * triangle d = d * (d + 1) := by
  induction d with
  | zero => rfl
  | succ d ih => rw [triangle, Nat.mul_add, ih, ← Nat.add_mul, Nat.mul_comm]

theorem le_triangle (d : Nat) : d ≤ triangle d := by
  cases d with
  | zero => exact Nat.le_refl _
  | succ d => exact Nat.le_add_left _ _

namespace Node

/-- A tree that fits into `d` levels, of which `k` are taken up before it. -/
structure Fits (k d : Nat) (n : Node) : Prop where
  openLevels_le : k + n.openLevels ≤ d
  levels_le : k + n.levels ≤ triangle d

variable {k l d : Nat} {n : Node}

theorem Fits.weaken (h : n.Fits k d) (le : l ≤ k) : n.Fits l d :=
  ⟨Nat.le_trans (Nat.add_le_add_right le _) h.openLevels_le,
    Nat.le_trans (Nat.add_le_add_right le _) h.levels_le⟩

/-- A node fits if the nodes below it do, each with the level that it takes up. -/
theorem Fits.of_children (plain : n.isPlain = true)
    (below : ∀ c ∈ n.children, c.2.Fits (c.2.levelIn c.1) d) : n.Fits 0 d :=
  ⟨(Nat.zero_add _).symm ▸ tally_le_of_plain plain fun c hc => (below c hc).openLevels_le,
    (Nat.zero_add _).symm ▸ tally_le_of_plain plain fun c hc => (below c hc).levels_le⟩

/-- A type of which the level is open already, read with `d` levels left. All levels of a type in
front of brackets may come on top of those of the brackets. -/
structure Inner (d : Nat) (n : Node) : Prop where
  openLevels_le : n.openLevels ≤ d
  levels_le : n.levels ≤ d + triangle d

theorem Fits.inner (h : n.Fits 0 d) : n.Inner d := by
  have open_le := h.openLevels_le
  have levels_le := h.levels_le
  exact ⟨by omega, by omega⟩

/-- The level that is opened for a type makes up for all brackets at its end. -/
theorem Inner.fits (h : n.Inner d) : n.Fits n.level (d + 1) := by
  have one := n.level_le_one
  have open_le := h.openLevels_le
  have levels_le := h.levels_le
  exact ⟨by omega, by rw [triangle]; omega⟩

theorem levelIn_le_seatOf (n : Node) (t : Target) (c : Node) :
    c.levelIn t ≤ (n.seatOf t).level c := by
  have below := c.levelIn_le t
  rcases t with t | t
  · cases t
    case predicateSubject => exact Nat.zero_le _
    case type => cases n <;> exact below
    all_goals exact below
  · exact below

end Node

/-- The nodes that are given fit into the levels that are left to open, each with the level that it
takes up. -/
def Regime.room : Regime where
  Suits seat d n := n.Fits (seat.level n) d
  Made d n := n.Fits 0 d

instance : Regime.room.Lawful where
  made {d n} plain below := by
    refine .of_children plain fun c hc => ?_
    have suits := below _ (Node.seats_of_isPlain plain ▸ List.mem_map_of_mem hc)
    exact suits.weaken (n.levelIn_le_seatOf c.1 c.2)
  suits fits _ flat := Node.Fits.weaken fits (Nat.le_of_eq flat)
  nested {d seat n} fits _ := by
    refine fits.inner.fits.weaken ?_
    cases seat with
    | subject => exact Nat.zero_le _
    | _ => exact Nat.le_refl _
  result h := h
  element h := h

end Ambient

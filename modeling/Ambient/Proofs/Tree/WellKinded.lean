import Ambient.Proofs.Tree.Parts

namespace Ambient

/-- The shapes that may stand in a place. -/
def Target.shapes : Target → List Shape
  | .category c => c.variants.map Prod.snd
  | .shape s => [s]

namespace Node

/-- A property holds at a node in its place and at all nodes below it in theirs. -/
inductive Throughout (p : Target → Node → Prop) : Target → Node → Prop where
  | intro {t : Target} {n : Node} (here : p t n)
      (below : ∀ c ∈ n.children, Throughout p c.1 c.2) : Throughout p t n

theorem Throughout.mono {p q : Target → Node → Prop} (h : ∀ t n, p t n → q t n) {t : Target}
    {n : Node} (hn : n.Throughout p t) : n.Throughout q t := by
  induction hn with
  | intro here _ ih => exact ⟨h _ _ here, ih⟩

end Node

/-- The kinds that a part holds are those that may stand there. -/
def Part.Admitted : Part → Prop
  | .modifiers values => ∀ m ∈ values.getD [], m.kind.isModifier = true
  | .operator _ k => k.isTypeOperator = true
  | _ => True

namespace Node

/-- A node may stand in a place, as far as its kind and the kinds in its parts are concerned. -/
structure Admitted (t : Target) (n : Node) : Prop where
  shape_mem : n.shape ∈ t.shapes
  kind_accepted : n.shape.accepts n.kind = true
  parts_admitted : ∀ p ∈ n.parts, p.Admitted

/-- All nodes of a tree may stand in their places. -/
def WellKinded (t : Target) (n : Node) : Prop := n.Throughout Admitted t

end Node

namespace Shape

/-- The kinds of the other shapes are neither tokens nor keyword types. -/
theorem accepts_of_kind? : ∀ {s : Shape} {k : Kind}, s.kind? = some k →
    token.accepts k = false ∧ keywordType.accepts k = false := by
  intro s k h
  cases s <;> simp only [kind?, Option.some.injEq, reduceCtorEq] at h <;> subst h <;> decide

theorem kind?_injective {s r : Shape} {k : Kind} (hs : s.kind? = some k) (hr : r.kind? = some k) :
    s = r := by
  have all : ∀ r ∈ Shape.all, r.kind? = some k → r = s := by
    cases s <;> simp only [kind?, Option.some.injEq, reduceCtorEq] at hs <;> subst hs <;> decide
  exact (all r (by cases r <;> decide) hr).symm

theorem accepts_cases {s : Shape} {k : Kind} (h : s.accepts k = true) :
    s = .token ∨ s = .keywordType ∨ s.kind? = some k := by
  cases s <;> first | exact .inl rfl | exact .inr (.inl rfl) | simpa [accepts] using h

theorem token_accepts_keywordType {k : Kind} (h : keywordType.accepts k = true) :
    token.accepts k = false := by
  have all : ∀ k ∈ Kind.keywordTypes, token.accepts k = false := by decide
  exact all k (List.contains_iff_mem.mp h)

/-- No kind belongs to two shapes. -/
theorem accepts_unique {s r : Shape} {k : Kind} (hs : s.accepts k = true)
    (hr : r.accepts k = true) : s = r := by
  rcases accepts_cases hs with rfl | rfl | ks <;> rcases accepts_cases hr with rfl | rfl | kr
  · rfl
  · simp [token_accepts_keywordType hr] at hs
  · simp [(accepts_of_kind? kr).1] at hs
  · simp [token_accepts_keywordType hs] at hr
  · rfl
  · simp [(accepts_of_kind? kr).2] at hs
  · simp [(accepts_of_kind? ks).1] at hr
  · simp [(accepts_of_kind? ks).2] at hr
  · exact kind?_injective ks kr

end Shape

/-- In a category a kind decides the shape. -/
theorem Category.shape?_eq {c : Category} {s : Shape} {k : Kind}
    (hs : s ∈ (Target.category c).shapes) (hk : s.accepts k = true) : c.shape? k = some s := by
  obtain ⟨entry, mem, rfl⟩ := List.mem_map.mp hs
  cases found : c.variants.find? fun entry => entry.2.accepts k with
  | none => exact absurd hk (List.find?_eq_none.mp found entry mem)
  | some other =>
    have accepted : other.2.accepts k = true := by simpa using List.find?_some found
    rw [shape?, found, Option.map_some, Shape.accepts_unique accepted hk]

theorem Node.Admitted.accepts {t : Target} {n : Node} (h : n.Admitted t) :
    t.accepts n.kind = true := by
  cases t with
  | shape s =>
    have hs := List.mem_singleton.mp h.shape_mem
    exact hs ▸ h.kind_accepted
  | category c =>
    obtain ⟨entry, mem, eq⟩ := List.mem_map.mp h.shape_mem
    exact List.any_eq_true.mpr ⟨entry, mem, eq ▸ h.kind_accepted⟩

end Ambient

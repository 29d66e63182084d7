import Ambient.Proofs.Grammar.Modifiers
import Ambient.Proofs.Grammar.Leads
import Ambient.Proofs.Tree.Levels
import Ambient.Proofs.Tree.Strata

namespace Ambient

/-- The nodes in what a rule gives. -/
class HasNodes (α : Type) where
  nodes : α → List Node

namespace HasNodes

instance : HasNodes Node := ⟨fun n => [n]⟩
instance : HasNodes Unit := ⟨fun _ => []⟩
instance : HasNodes Bool := ⟨fun _ => []⟩
instance : HasNodes String := ⟨fun _ => []⟩
instance : HasNodes Lexeme := ⟨fun _ => []⟩

instance {α : Type} [HasNodes α] : HasNodes (List α) := ⟨fun l => l.flatMap nodes⟩
instance {α : Type} [HasNodes α] : HasNodes (Option α) := ⟨fun x => x.toList.flatMap nodes⟩
instance {α β : Type} [HasNodes α] [HasNodes β] : HasNodes (α × β) :=
  ⟨fun x => nodes x.1 ++ nodes x.2⟩

end HasNodes

/-- What holds of nodes where some levels are left to open. -/
structure Regime where
  /-- What holds of a node that is there for something. -/
  Suits : Seat → Nat → Node → Prop
  /-- What holds of a node whose own level, if it takes up one, is open. -/
  Made : Nat → Node → Prop

namespace Seat

/-- The level that a node takes up. What a predicate is about takes up none. -/
def level : Seat → Node → Nat
  | .subject, _ => 0
  | _, n => n.level

end Seat

namespace Node

/-- Whether a node is put together from its parts, and is no type that may only stand in places of
its own. -/
def isWhole (n : Node) : Bool := n.isPlain && (Seat.within 0).admits n

theorem seats_of_isPlain {n : Node} (plain : n.isPlain = true) :
    n.seats = n.children.map fun c => (n.seatOf c.1, c.2) := by
  cases n <;> first | rfl | cases plain

end Node

namespace Regime

/-- What a regime has to say where nodes are put together. -/
class Lawful (R : Regime) : Prop where
  made : ∀ {d n}, n.isPlain = true → (∀ c ∈ n.seats, R.Suits c.1 d c.2) → R.Made d n
  suits : ∀ {d seat n}, R.Made d n → seat.admits n = true → seat.level n = 0 → R.Suits seat d n
  nested : ∀ {d seat n}, R.Made d n → seat.admits n = true → R.Suits seat (d + 1) n
  result : ∀ {d n}, R.Suits .bare d n → R.Suits .result d n
  element : ∀ {d n}, R.Suits .bare d n → R.Suits .element d n

/-- A node put together from its parts, whose own level, if it takes up one, is open. -/
structure Whole (R : Regime) (d : Nat) (n : Node) : Prop where
  made : R.Made d n
  whole : n.isWhole = true

section

variable {R : Regime} {α : Type} [HasNodes α] {seat : Seat} {d : Nat}

/-- All nodes in a value are there for the same thing. -/
def Holds (R : Regime) (seat : Seat) (d : Nat) (a : α) : Prop :=
  ∀ n ∈ HasNodes.nodes a, R.Suits seat d n

namespace Holds

theorem none : R.Holds seat d (Option.none : Option α) := nofun

theorem nil : R.Holds seat d ([] : List α) := nofun

theorem some {a : α} : R.Holds seat d (Option.some a) ↔ R.Holds seat d a := by
  simp [Holds, HasNodes.nodes]

theorem node {n : Node} : R.Holds seat d n ↔ R.Suits seat d n := List.forall_mem_singleton

theorem list {l : List α} : R.Holds seat d l ↔ ∀ a ∈ l, R.Holds seat d a := by
  simp only [Holds, HasNodes.nodes, List.mem_flatMap]
  exact ⟨fun h a ha n hn => h n ⟨a, ha, hn⟩, fun h n ⟨a, ha, hn⟩ => h a ha n hn⟩

theorem cons {a : α} {l : List α} :
    R.Holds seat d (a :: l) ↔ R.Holds seat d a ∧ R.Holds seat d l := by
  simp only [list, List.forall_mem_cons]

end Holds

end

/-- The nodes of a part are there for what their place says. -/
def HoldsPart (R : Regime) (seatOf : Target → Seat) (d : Nat) : Part → Prop
  | .node _ t value => R.Holds (seatOf t) d value
  | .node? _ t value => R.Holds (seatOf t) d value
  | .list _ t values => R.Holds (seatOf t) d values
  | .list? _ t values => R.Holds (seatOf t) d values
  | .modifiers values => R.Holds (seatOf (.shape .token)) d values
  | .text .. | .text? .. | .flag .. | .bits .. | .operator .. => True

/-- All parts of a list hold. -/
def HoldsParts (R : Regime) (seatOf : Target → Seat) (d : Nat) : List Part → Prop
  | [] => True
  | p :: ps => R.HoldsPart seatOf d p ∧ HoldsParts R seatOf d ps

variable {R : Regime} {seatOf : Target → Seat} {seat : Seat} {d : Nat} {n : Node}

theorem HoldsPart.place {p : Part} (h : R.HoldsPart seatOf d p) {c : Target × Node}
    (hc : c ∈ p.places) : R.Suits (seatOf c.1) d c.2 := by
  cases p <;> simp only [Part.places, List.mem_singleton, List.mem_map, Option.mem_toList,
    List.not_mem_nil] at hc
  case node => exact hc ▸ Holds.node.mp h
  case node? =>
    obtain ⟨m, hm, rfl⟩ := hc
    exact Holds.node.mp (Holds.some.mp (hm ▸ h))
  case list =>
    obtain ⟨m, hm, rfl⟩ := hc
    exact Holds.node.mp (Holds.list.mp h m hm)
  all_goals
    obtain ⟨m, hm, rfl⟩ := hc
    rename_i values
    cases values with
    | none => cases hm
    | some l => exact Holds.node.mp (Holds.list.mp (Holds.some.mp h) m hm)

theorem HoldsParts.of_mem {ps : List Part} (h : R.HoldsParts seatOf d ps) {p : Part} (hp : p ∈ ps) :
    R.HoldsPart seatOf d p := by
  induction hp with
  | head => exact h.1
  | tail _ _ ih => exact ih h.2

theorem HoldsParts.child (h : R.HoldsParts seatOf d n.parts) {c : Target × Node}
    (hc : c ∈ n.children) : R.Suits (seatOf c.1) d c.2 := by
  obtain ⟨p, hp, mem⟩ := List.mem_flatMap.mp hc
  exact (h.of_mem hp).place mem

variable [laws : R.Lawful]

theorem made_of_parts (h : R.HoldsParts n.seatOf d n.parts) (plain : n.isPlain = true := by rfl) :
    R.Made d n := by
  refine laws.made plain fun c hc => ?_
  rw [Node.seats_of_isPlain plain] at hc
  obtain ⟨b, hb, rfl⟩ := List.mem_map.mp hc
  exact h.child hb

/-- A node that takes up no level is there for what it may be there for if its parts hold. -/
theorem Holds.of_parts (h : R.HoldsParts n.seatOf d n.parts) (plain : n.isPlain = true := by rfl)
    (admitted : seat.admits n = true := by rfl) (flat : seat.level n = 0 := by rfl) :
    R.Holds seat d n :=
  Holds.node.mpr (laws.suits (made_of_parts h plain) admitted flat)

theorem Whole.of_parts (h : R.HoldsParts n.seatOf d n.parts) (whole : n.isWhole = true := by rfl) :
    R.Whole d n :=
  ⟨made_of_parts h (Bool.and_eq_true_iff.mp whole).1, whole⟩

omit laws in
theorem Whole.admitted (h : R.Whole d n) : Seat.bare.admits n = true :=
  (Bool.and_eq_true_iff.mp (Bool.and_eq_true_iff.mp h.whole).2).1

theorem Whole.nested (h : R.Whole d n) : R.Holds .bare (d + 1) n :=
  Holds.node.mpr (laws.nested h.made h.admitted)

theorem Holds.result (h : R.Holds .bare d n) : R.Holds .result d n :=
  Holds.node.mpr (laws.result (Holds.node.mp h))

theorem Holds.element (h : R.Holds .bare d n) : R.Holds .element d n :=
  Holds.node.mpr (laws.element (Holds.node.mp h))

end Regime

namespace Rule

variable {α β : Type} {d : Nat}

/-- All that a rule gives where `d` levels are left to open satisfies `Q`. -/
def Ensures (d : Nat) (r : Rule Nat α) (Q : α → Prop) : Prop := ∀ ⦃s a u⦄, r.Leads d s a u → Q a

/-- A rule heeds a regime: all that it gives is there for the same thing. -/
class Heeds (R : Regime) (seat : outParam Seat) (d : Nat) (r : Rule Nat α) [HasNodes α] : Prop where
  holds : r.Ensures d (R.Holds seat d)

namespace Ensures

variable {r : Rule Nat α} {f : α → Rule Nat β} {P : α → Prop} {Q : β → Prop}

theorem bind [Balanced r] (first : r.Ensures d P) (others : ∀ a, P a → (f a).Ensures d Q) :
    (r >>= f).Ensures d Q := by
  intro s b u h
  obtain ⟨a, t, read, h⟩ := h.bind
  exact others a (first read) h

/-- Goes on behind a rule that heeds a regime. -/
theorem next {R : Regime} {seat : Seat} [HasNodes α] [Balanced r] [heeds : Heeds R seat d r]
    (others : ∀ a, R.Holds seat d a → (f a).Ensures d Q) : (r >>= f).Ensures d Q :=
  bind heeds.holds others

/-- Goes on behind a rule that gives no nodes. -/
theorem step [Balanced r] (others : ∀ a, (f a).Ensures d Q) : (r >>= f).Ensures d Q :=
  bind (P := fun _ => True) (fun _ _ _ _ => trivial) fun a _ => others a

theorem ite {c : Prop} [Decidable c] {r r' : Rule Nat β} (h : r.Ensures d Q) (h' : r'.Ensures d Q) :
    (if c then r else r').Ensures d Q := by
  split
  · exact h
  · exact h'

theorem pure {b : β} (h : Q b) : (Pure.pure b : Rule Nat β).Ensures d Q :=
  fun _ _ _ leads => leads.pure.1 ▸ h

theorem map {g : α → β} [Balanced r] (h : r.Ensures d P) (made : ∀ a, P a → Q (g a)) :
    (g <$> r).Ensures d Q :=
  bind h fun a ha => pure (made a ha)

theorem fail {f : Failure} : (Rule.fail f : Rule Nat β).Ensures d Q := fun _ _ _ h => h.fail.elim

theorem failHere {m : Message} {arguments : List String} :
    (Rule.failHere m arguments : Rule Nat β).Ensures d Q := fun _ _ _ h => h.failHere.elim

theorem imp {r : Rule Nat β} {Q' : β → Prop} (h : r.Ensures d Q) (le : ∀ b, Q b → Q' b) :
    r.Ensures d Q' :=
  fun _ _ _ leads => le _ (h leads)

theorem alternatives {rules : List (Rule Nat β)} {fallback : Message}
    (balanced : ∀ r ∈ rules, Balanced r) (each : ∀ r ∈ rules, r.Ensures d Q) :
    (alternatives rules fallback).Ensures d Q := by
  intro s b u h
  obtain ⟨r, mem, leads⟩ := h.alternatives balanced
  exact each r mem leads

/-- What is read one level deeper has one level less to open. -/
theorem nested {r : Rule Nat β} [Balanced r] (h : ∀ d', d = d' + 1 → r.Ensures d' Q) :
    (nested r).Ensures d Q := by
  intro s b u leads
  obtain ⟨d', eq, leads⟩ := leads.nested
  exact h d' eq leads

theorem bounded {r : Budget → Rule Nat β} (h : ∀ budget, (r budget).Ensures d Q) :
    (bounded r).Ensures d Q :=
  fun _ _ _ leads => h _ leads.bounded

/-- What is ensured of each value that is read is ensured of all of them. -/
theorem each {item : Rule Nat (Option β)} [Balanced item]
    (h : item.Ensures d fun x => ∀ b ∈ x, Q b) : (many item).Ensures d fun l => ∀ b ∈ l, Q b := by
  intro s l u leads
  refine Leads.many (P := fun l _ => ∀ b ∈ l, Q b) ?_ (fun _ _ _ before _ => before) leads nofun
  intro l b v w before step
  exact List.forall_mem_append.mpr ⟨before, List.forall_mem_singleton.mpr (h step b rfl)⟩

section

variable {R : Regime} {seat : Seat} [HasNodes β]

theorem many {item : Rule Nat (Option β)} [Balanced item] (h : item.Ensures d (R.Holds seat d)) :
    (many item).Ensures d (R.Holds seat d) :=
  (each (h.imp fun _ holds _ is => Regime.Holds.some.mp (Option.mem_def.mp is ▸ holds))).imp fun _ =>
    Regime.Holds.list.mpr

/-- What reads nothing or what another rule reads heeds a regime with it. -/
theorem noneOr {r : Rule Nat β} [Balanced r] {c : Prop} [Decidable c]
    (h : r.Ensures d (R.Holds seat d)) :
    (if c then Pure.pure none else some <$> r).Ensures d (R.Holds seat d) :=
  ite (pure .none) (map h fun _ => Regime.Holds.some.mpr)

theorem orNone {r : Rule Nat β} [Balanced r] {c : Prop} [Decidable c]
    (h : r.Ensures d (R.Holds seat d)) :
    (if c then some <$> r else Pure.pure none).Ensures d (R.Holds seat d) :=
  ite (map h fun _ => Regime.Holds.some.mpr) (pure .none)

theorem optionalAfter {r : Rule Nat β} [Balanced r] {k : Kind} (h : r.Ensures d (R.Holds seat d)) :
    (Rule.optionalAfter k r).Ensures d (R.Holds seat d) :=
  step fun _ => orNone h

end

/-- What grows by a level with every step satisfies in the end what each step preserves, with one
level less left to open. -/
theorem climb {here : Rule Nat Bool} {grow : β → Rule Nat (Option β)} [Balanced here]
    [∀ b, Balanced (grow b)] {P : Nat → β → Prop} {b : β} (start : P d b)
    (next : ∀ d b, (grow b).Ensures d fun x => ∃ b', x = some b' ∧ (P (d + 1) b → P d b')) :
    (closingLevels (iterate (Leads.climbStep here grow) b)).Ensures d fun c => ∃ d' ≤ d, P d' c := by
  intro s c u leads
  refine leads.climb (P := fun d b _ => P d b) ?_ (fun _ _ _ _ before _ => before) ?_ start
  · intro d b b' s t v before _ step
    obtain ⟨b'', eq, preserved⟩ := next d b step
    obtain rfl := Option.some.inj eq
    exact preserved before
  · intro d b s t step
    obtain ⟨b', eq, -⟩ := next d b step
    cases eq

end Ensures

open Ensures

namespace Heeds

variable {R : Regime} {seat : Seat} [HasNodes α] {r : Rule Nat α}

instance many {item : Rule Nat (Option α)} [Balanced item] [h : Heeds R seat d item] :
    Heeds R seat d (Rule.many item) :=
  ⟨.many h.holds⟩

instance optionalAfter {k : Kind} [Balanced r] [h : Heeds R seat d r] :
    Heeds R seat d (Rule.optionalAfter k r) :=
  ⟨.optionalAfter h.holds⟩

instance delimited {close : Kind} {trailing : Bool} [Balanced r] [h : Heeds R seat d r] :
    Heeds R seat d (Rule.delimited close trailing r) := by
  refine ⟨next (R := R) fun first suits => ?_⟩
  refine bind (.many (step fun _ => ite (step fun _ => noneOr h.holds) (pure .none))) fun others rest => ?_
  exact pure (Regime.Holds.cons.mpr ⟨suits, rest⟩)

instance token? {k : Kind} [R.Lawful] : Heeds R .bare d (Rule.token? k) := by
  refine ⟨step fun found => pure ?_⟩
  split
  · exact Regime.Holds.some.mpr (.of_parts trivial)
  · exact .none

end Heeds

end Rule

namespace Grammar

open Rule Regime Ensures

variable {R : Regime} [R.Lawful] {d : Nat}

theorem holds_token (k : Kind) : R.Holds .bare d (Node.token k) := .of_parts trivial

theorem holds_identifier (text : String) (comment : Option String) :
    R.Holds .bare d (Node.identifier text comment) :=
  .of_parts ⟨trivial, trivial, trivial⟩

omit [R.Lawful] in
theorem identifierOf_ensures {allowed : Kind → Bool} {comment : Option String} :
    (identifierOf allowed comment).Ensures d fun n => ∃ text, n = .identifier text comment :=
  step fun _ => ite (step fun _ => pure ⟨_, rfl⟩) failHere

instance {allowed : Kind → Bool} {comment : Option String} :
    Heeds R .bare d (identifierOf allowed comment) :=
  ⟨identifierOf_ensures.imp fun _ ⟨text, eq⟩ => eq ▸ holds_identifier text comment⟩

instance {comment : Option String} : Heeds R .bare d (name comment) :=
  inferInstanceAs (Heeds R .bare d (identifierOf _ _))

instance {comment : Option String} : Heeds R .bare d (anyName comment) :=
  inferInstanceAs (Heeds R .bare d (identifierOf _ _))

instance : Heeds R .bare d literal? := by
  have string (text : String) : R.Holds .bare d (some (Node.stringLiteral text)) :=
    Holds.some.mpr (.of_parts ⟨trivial, trivial⟩)
  have number (text : String) : R.Holds .bare d (some (Node.numericLiteral text)) :=
    Holds.some.mpr (.of_parts ⟨trivial, trivial⟩)
  exact ⟨step fun _ => ite (pure .none) (ite (step fun _ => pure (string _))
    (ite (step fun _ => pure (number _)) (pure .none)))⟩

instance : Heeds R .bare d stringLiteral :=
  ⟨step fun _ => ite (step fun _ => pure (.of_parts ⟨trivial, trivial⟩)) failHere⟩

instance {comment : Option String} : Heeds R .bare d (propertyName comment) := by
  refine ⟨step fun _ => ite Heeds.holds (next (R := R) fun found suits => ?_)⟩
  split
  · exact pure (Holds.some.mp suits)
  · exact failHere

instance {allowed : List Kind} : Heeds R .bare d (modifiers allowed) := by
  refine ⟨fun s l u h => ?_⟩
  obtain ⟨kinds, -, -, rfl⟩ := modifiers_read h
  split
  · exact .none
  · refine Holds.some.mpr (Holds.list.mpr fun n mem => ?_)
    obtain ⟨k, -, rfl⟩ := List.mem_map.mp mem
    exact holds_token k

instance {allowed : List Kind} : Heeds R .bare d (declarationModifiers allowed) :=
  ⟨next fun _ read => step fun _ => pure read⟩

instance : Heeds R .bare d memberModifiers := ⟨next fun _ read => step fun _ => pure read⟩

end Grammar

end Ambient

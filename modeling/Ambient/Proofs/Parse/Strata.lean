import Ambient.Proofs.Parse.Reads
import Ambient.Proofs.Seat.Statement

namespace Ambient

/-- All nodes are where they may be. -/
def Regime.strata : Regime where
  Suits seat _ n := n.Stratified seat
  Made _ n := ∀ c ∈ n.seats, c.2.Stratified c.1

namespace Node

variable {seat : Seat} {n : Node}

theorem Stratified.admitted (h : n.Stratified seat) : seat.admits n = true := by
  cases h
  assumption

theorem Stratified.seated (h : n.Stratified seat) : ∀ c ∈ n.seats, c.2.Stratified c.1 := by
  cases h
  assumption

/-- What is admitted elsewhere may stand there as well. -/
theorem Stratified.reseat {seat' : Seat} (h : n.Stratified seat) (admitted : seat'.admits n = true) :
    n.Stratified seat' :=
  .intro admitted h.seated

theorem Stratified.bare {k : Nat} (h : n.Stratified (.within k)) : n.Stratified .bare :=
  h.reseat (Bool.and_eq_true_iff.mp h.admitted).1

/-- A tighter type may stand where a looser one may. -/
theorem Stratified.loosen {k l : Nat} (h : n.Stratified (.within k)) (le : k ≤ l) :
    n.Stratified (.within l) := by
  obtain ⟨bare, tight⟩ := Bool.and_eq_true_iff.mp h.admitted
  have loose : n.stratum ≤ l := Nat.le_trans (of_decide_eq_true tight) le
  exact h.reseat (Bool.and_eq_true_iff.mpr ⟨bare, decide_eq_true loose⟩)

/-- Types next to each other are in one stratum with what joins them. -/
theorem Stratified.joined {types : List Node} {join : List Node → Node} {k : Nat}
    (seats : (join types).seats = types.map fun n => (.within k, n))
    (admitted : (Seat.within (k + 1)).admits (join types) = true)
    (each : ∀ n ∈ types, n.Stratified (.within k)) : (join types).Stratified (.within (k + 1)) := by
  refine .intro admitted ?_
  rw [seats]
  exact List.forall_mem_map.mpr each

end Node

instance : Regime.strata.Lawful where
  made _ below := below
  suits below admitted _ := .intro admitted below
  nested below admitted := .intro admitted below
  result h := h.reseat (Bool.and_eq_true_iff.mp h.admitted).2
  element h := h.reseat (Bool.and_eq_true_iff.mp h.admitted).1

namespace Grammar

open Rule Node Ensures

instance {d : Nat} : Heeds .strata .bare d entityName := by
  refine ⟨next (R := .strata) fun first holds => ?_⟩
  refine (climb (P := fun _ n => n.Stratified .bare) (Regime.Holds.node.mp holds) fun d' left => ?_).imp ?_
  · refine step fun _ => next (R := .strata) fun right last => pure ⟨_, rfl, fun before => ?_⟩
    refine .intro rfl (List.forall_mem_cons.mpr ⟨before, List.forall_mem_singleton.mpr ?_⟩)
    exact Regime.Holds.node.mp last
  · rintro n ⟨d', -, stratified⟩
    exact Regime.Holds.node.mpr stratified

section

variable {type : Rule Nat Node} [Balanced type] [∀ d, Heeds .strata .bare d type]

theorem postfixType_stratified (d : Nat) :
    (postfixType type).Ensures d (Stratified (.within 0)) := by
  refine bind (primaryType_ensures (R := .strata)) fun first ⟨below, whole⟩ => ?_
  have start : first.Stratified (.within 0) := .intro (Bool.and_eq_true_iff.mp whole).2 below
  refine (climb (P := fun _ n => n.Stratified (.within 0)) start fun d' element => ?_).imp ?_
  · refine step fun _ => step fun _ => ite ?_ ?_
    · refine pure ⟨_, rfl, fun before => .intro rfl ?_⟩
      exact List.forall_mem_singleton.mpr before
    · refine next (R := .strata) fun index holds => step fun _ => pure ⟨_, rfl, fun before => ?_⟩
      refine .intro rfl (List.forall_mem_cons.mpr ⟨before, List.forall_mem_singleton.mpr ?_⟩)
      exact Regime.Holds.node.mp holds
  · rintro n ⟨d', -, stratified⟩
    exact stratified

theorem operatorType_stratified (d : Nat) :
    (operatorType type).Ensures d (Stratified (.within 1)) := by
  refine operatorType_ensures (Q := fun _ => Stratified (.within 1)) (fun d => ?_) (fun _ k n h => ?_) d
  · exact (postfixType_stratified d).imp fun n tight => tight.loosen (Nat.zero_le 1)
  · exact .intro rfl (List.forall_mem_singleton.mpr h)

theorem unionType_stratified (d : Nat) : (unionType type).Ensures d (Stratified (.within 3)) := by
  have intersection : (intersectionType type).Ensures d (Stratified (.within 2)) :=
    terms_ensure (operatorType_stratified d) (fun _ tight => tight.loosen (by decide)) fun types =>
      .joined (by simp [seats, children, parts, Part.places, seatOf, typeSeat]) rfl
  exact terms_ensure intersection (fun _ tight => tight.loosen (by decide)) fun types =>
    .joined (by simp [seats, children, parts, Part.places, seatOf, typeSeat]) rfl

end

end Grammar

instance : Regime.strata.Typed where
  entityName _ := inferInstance
  type := Grammar.heeds_type fun _ _ _ d => (Grammar.unionType_stratified d).imp fun _ stratified =>
    Regime.Holds.node.mpr stratified.bare

open Rule Grammar

/-- In a parsed tree all nodes are where they may be: no union, intersection or operator stands
directly in what is tighter, predicates are only what calls give, and what only tuples are made of is
only in tuples. -/
theorem stratified_of_parse (entry : Entry) (options : Options) (text : String) (n : Node)
    (h : parse entry options text = .ok n) : n.Stratified .bare := by
  obtain ⟨u, leads⟩ := leads_of_parse h
  have read {r : Rule Nat Node} [heeds : Heeds .strata .bare options.depthLimit r]
      (leads : r.Leads options.depthLimit (.ofText text) n u) : n.Stratified .bare :=
    Regime.Holds.node.mp (heeds.holds leads)
  cases entry with
  | file =>
    obtain ⟨statements, collected, rfl⟩ := Leads.map leads
    have holds : Regime.strata.Holds .bare options.depthLimit statements :=
      (Heeds.holds : (statementsUntil statement .endOfFileToken).Ensures _ _) collected
    exact .intro rfl (Regime.made_of_parts (R := .strata) (d := options.depthLimit) ⟨holds, trivial⟩)
  | type => exact read (entire_leads (r := type) leads).1
  | typeMember => exact read (entire_leads (r := typeMember type) leads).1
  | classMember => exact read (entire_leads (r := classMember type) leads).1
  | statement => exact read (entire_leads (r := statement) leads).1

theorem stratified_of_parse_tuple : ∃ n,
    parse .type {} "keyof (A | B)[] & ((x: C) => x is D) | [x?: E, ...F[], G?]" = .ok n ∧
      n.Stratified .bare := by
  have parses : (parse .type {} "keyof (A | B)[] & ((x: C) => x is D) | [x?: E, ...F[], G?]").toOption.any
      (fun _ => true) = true := by decide +kernel
  obtain ⟨n, parsed, -⟩ := exists_of_any parses
  exact ⟨n, parsed, stratified_of_parse .type {} _ n parsed⟩

end Ambient

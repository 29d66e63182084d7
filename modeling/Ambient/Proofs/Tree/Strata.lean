import Ambient.Proofs.Tree.Parts

namespace Ambient

namespace Node

/-- How loose a type is: what an operator stands in front of is looser than what brackets may stand
behind, intersections are looser than that, and unions are looser still. -/
def stratum : Node → Nat
  | .unionType _ => 3
  | .intersectionType _ => 2
  | .typeOperator .. => 1
  | _ => 0

/-- Whether a node is a type only as the result of a call. -/
def isPredicate : Node → Bool
  | .typePredicate .. => true
  | _ => false

/-- Whether a node is a type only as an element of a tuple. -/
def isTupleOnly : Node → Bool
  | .optionalType _ | .restType _ | .namedTupleMember .. => true
  | _ => false

end Node

/-- What a node is there for in the node right above it. -/
inductive Seat where
  /-- By itself. -/
  | bare
  /-- As what a predicate is about. -/
  | subject
  /-- As a type of some stratum or a tighter one. -/
  | within (stratum : Nat)
  /-- As the type that a call gives. -/
  | result
  /-- As an element of a tuple. -/
  | element

/-- Whether a node may be there. -/
def Seat.admits : Seat → Node → Bool
  | .bare, n | .subject, n => !n.isPredicate && !n.isTupleOnly
  | .within k, n => !n.isPredicate && !n.isTupleOnly && decide (n.stratum ≤ k)
  | .result, n => !n.isTupleOnly
  | .element, n => !n.isPredicate

namespace Node

/-- What the types right below a node are there for, but for what stands in brackets. -/
def typeSeat : Node → Seat
  | .unionType _ => .within 2
  | .intersectionType _ | .typeOperator .. => .within 1
  | .arrayType _ | .indexedAccessType .. => .within 0
  | .tupleType _ => .element
  | .functionType .. | .constructorType .. | .callSignature .. | .constructSignature ..
  | .methodSignature .. | .methodDeclaration .. | .functionDeclaration .. => .result
  | _ => .bare

/-- What stands in a place right below a node is there for. -/
def seatOf (n : Node) : Target → Seat
  | .category .type => n.typeSeat
  | .category .predicateSubject => .subject
  | _ => .bare

/-- The nodes right below a node, each with what it is there for. -/
def seats : Node → List (Seat × Node)
  | .indexedAccessType object index => [(.within 0, object), (.bare, index)]
  | n => n.children.map fun c => (n.seatOf c.1, c.2)

/-- All nodes right below a node are there for something. -/
theorem map_snd_seats (n : Node) : n.seats.map Prod.snd = n.children.map Prod.snd := by
  cases n
  case indexedAccessType => rfl
  all_goals
    rw [seats, List.map_map]
    · rfl
    · nofun

/-- A tree of which all nodes are where they may be. -/
inductive Stratified : Seat → Node → Prop where
  | intro {seat : Seat} {n : Node} (admitted : seat.admits n = true)
      (below : ∀ c ∈ n.seats, Stratified c.1 c.2) : Stratified seat n

end Node

end Ambient

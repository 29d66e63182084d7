import Ambient.Grammar.Signature
import Ambient.Proofs.Tree.WellKinded

namespace Ambient

/-- A part of a node that may have some modifiers: lists that may be left out are not written as
empty lists, modifiers are allowed and not repeated, only the last parameter is a rest parameter. -/
def Part.Lawful (allowed : List Kind) : Part → Prop
  | .modifiers values => values ≠ some [] ∧ ((values.getD []).map Node.kind).Nodup ∧
    ∀ m ∈ values.getD [], m.kind ∈ allowed
  | .list? _ place values => values ≠ some [] ∧
    (place = .shape .parameter → ∀ q ∈ (values.getD []).dropLast, Grammar.isRest q = false)
  | .list _ place values =>
    place = .shape .parameter → ∀ q ∈ values.dropLast, Grammar.isRest q = false
  | .operator _ k => k.isTypeOperator = true
  | _ => True

namespace Part

variable {allowed : List Kind} {key : String}

@[simp] theorem lawful_text (value : String) : (Part.text key value).Lawful allowed := trivial

@[simp] theorem lawful_text? (value : Option String) : (Part.text? key value).Lawful allowed :=
  trivial

@[simp] theorem lawful_flag (value : Bool) : (Part.flag key value).Lawful allowed := trivial

@[simp] theorem lawful_bits (value : UInt32) : (Part.bits key value).Lawful allowed := trivial

@[simp] theorem lawful_node (place : Target) (value : Node) :
    (Part.node key place value).Lawful allowed := trivial

@[simp] theorem lawful_node? (place : Target) (value : Option Node) :
    (Part.node? key place value).Lawful allowed := trivial

/-- Of lists that must be written only those of parameters obey a law. -/
theorem lawful_list {place : Target} {values : List Node} (other : place ≠ .shape .parameter) :
    (Part.list key place values).Lawful allowed :=
  fun same => absurd same other

theorem lawful_list? {place : Target} {values : Option (List Node)} (written : values ≠ some [])
    (other : place ≠ .shape .parameter) :
    (Part.list? key place values).Lawful allowed :=
  ⟨written, fun same => absurd same other⟩

end Part

namespace Node

/-- The modifiers that a node may have in its place. Index signatures stand in classes too, where
they may have what other members of classes have. -/
def allowedModifiers (t : Target) : Node → List Kind
  | .interfaceDeclaration .. | .functionDeclaration .. =>
    [.exportKeyword, .defaultKeyword, .declareKeyword]
  | .classDeclaration .. => [.exportKeyword, .defaultKeyword, .declareKeyword, .abstractKeyword]
  | .enumDeclaration .. => [.exportKeyword, .declareKeyword, .constKeyword]
  | .typeAliasDeclaration .. | .variableStatement .. | .moduleDeclaration .. =>
    [.exportKeyword, .declareKeyword]
  | .propertySignature .. => [.readonlyKeyword]
  | .indexSignature .. =>
    if t = .category .classMember then Grammar.classMemberModifiers else [.readonlyKeyword]
  | .propertyDeclaration .. | .methodDeclaration .. | .constructorDeclaration .. =>
    Grammar.classMemberModifiers
  | .parameter .. => Grammar.parameterModifiers
  | .constructorType .. => [.abstractKeyword]
  | _ => []

/-- A module without body has a quoted name, and its flags say what it is: nothing if its name is
quoted; for a part of a dotted name behind the first one, that and whether `namespace` was written;
else whether `namespace` was written or it is a block that adds to the global scope. -/
structure ModuleLaw (t : Target) (flags : UInt32) (name : Node) (body : Option Node) : Prop where
  body_absent : body = none → ∃ text, name = .stringLiteral text
  quoted : ∀ text, name = .stringLiteral text → flags = 0
  inner : t = .category .moduleBody →
    flags = Flags.nestedBit ∨ flags = Flags.nestedBit ||| Flags.namespaceBit
  outer : t ≠ .category .moduleBody →
    flags = 0 ∨ flags = Flags.namespaceBit ∨
      (flags = Flags.globalBit ∧ name = .identifier "global" none ∧
        ∃ statements, body = some (.moduleBlock statements))
  below : ∀ flags' modifiers name' body',
    body = some (.moduleDeclaration flags' modifiers name' body') →
      flags' = Flags.nestedBit ||| (flags &&& Flags.namespaceBit) ∧ modifiers = none

/-- How the parts of a node belong together. -/
def Composed (t : Target) : Node → Prop
  -- a rest parameter is never optional
  | .parameter _ dots _ question _ => dots.isSome = true → question = none
  -- all types that a class or an interface builds on make up one clause
  | .interfaceDeclaration _ _ _ heritage _ | .classDeclaration _ _ _ heritage _ =>
    ∀ clauses, heritage = some clauses → ∃ types, types ≠ [] ∧ clauses = [.heritageClause types]
  | .unionType types | .intersectionType types => 2 ≤ types.length
  | .enumDeclaration _ _ members => members ≠ []
  | .variableDeclarationList _ declarations => declarations ≠ []
  | .indexSignature _ parameters _ => parameters.length = 1
  | .moduleDeclaration flags _ name body => ModuleLaw t flags name body
  | _ => True

/-- A node obeys the laws in its place. -/
structure Lawful (t : Target) (n : Node) : Prop where
  shape_mem : n.shape ∈ t.shapes
  kind_accepted : n.shape.accepts n.kind = true
  parts_lawful : ∀ p ∈ n.parts, p.Lawful (n.allowedModifiers t)
  composed : n.Composed t

theorem isModifier_of_allowed (t : Target) (n : Node) :
    ∀ k ∈ n.allowedModifiers t, k.isModifier = true := by
  cases n
  case indexSignature =>
    simp only [allowedModifiers]
    split <;> decide
  all_goals
    simp only [allowedModifiers]
    decide

theorem Lawful.admitted {t : Target} {n : Node} (h : n.Lawful t) : n.Admitted t := by
  refine ⟨h.shape_mem, h.kind_accepted, ?_⟩
  intro p hp
  have lawful := h.parts_lawful p hp
  cases p with
  | modifiers values => exact fun m hm => isModifier_of_allowed t n _ (lawful.2.2 m hm)
  | operator key k => exact lawful
  | _ => trivial

end Node

end Ambient

import Ambient.Proofs.Seat.Signature

namespace Ambient

namespace Grammar

open Rule Regime Ensures

section

variable {R : Regime} [R.Lawful] {d : Nat} {type : Rule Nat Node} [Balanced type]
  [Heeds R .bare d type]

instance : Heeds R .result d (arrowResult type) := ⟨step fun _ => Heeds.holds⟩

theorem functionType_ensures : (functionType type).Ensures d (R.Whole d) :=
  next fun _ typeParameters => next fun _ parameters => next fun _ result =>
    pure (.of_parts ⟨typeParameters, parameters, result, trivial⟩)

theorem constructorType_ensures : (constructorType type).Ensures d (R.Whole d) := by
  refine next (R := R) fun abstractToken modifier => step fun _ => next (R := R) fun _ typeParameters =>
    next (R := R) fun _ parameters => next (R := R) fun _ result =>
      pure (.of_parts ⟨?_, typeParameters, parameters, result, trivial⟩)
  cases abstractToken with
  | none => exact .none
  | some n => exact Holds.some.mpr (Holds.cons.mpr ⟨Holds.some.mp modifier, .nil⟩)

theorem parenthesizedType_ensures : (parenthesizedType type).Ensures d (R.Whole d) :=
  step fun _ => next fun _ inner => step fun _ => pure (.of_parts ⟨inner, trivial⟩)

instance : Heeds R .element d (labelledElement type) :=
  ⟨next fun _ dots => next fun _ label => next fun _ question => step fun _ =>
    next fun _ element => pure (.of_parts ⟨dots, label, question, element, trivial⟩)⟩

instance : Heeds R .element d (tupleElement type) := by
  refine ⟨step fun _ => ite Heeds.holds (step fun _ => ite ?_ ?_)⟩
  · exact next fun _ rest => pure (.of_parts ⟨rest, trivial⟩)
  · exact next fun _ element => step fun _ =>
      ite (pure (.of_parts ⟨element, trivial⟩)) (pure element.element)

theorem tupleType_ensures : (tupleType type).Ensures d (R.Whole d) := by
  refine step fun _ => step fun _ => ite (bind (P := R.Holds .element d) (pure .nil) ?_)
    (next (R := R) ?_)
  all_goals
    exact fun _ elements => step fun _ => pure (.of_parts ⟨elements, trivial⟩)

instance {k : Kind} : Heeds R .bare d (signed k) :=
  ⟨step fun _ => ite (step fun _ => step fun _ => pure (Holds.some.mpr (holds_token _)))
    Heeds.holds⟩

theorem mappedType_ensures : (mappedType type).Ensures d (R.Whole d) := by
  refine step fun _ => next (R := R) fun _ readonlyToken => step fun _ => next (R := R) fun key named =>
    step fun _ => next (R := R) fun constraint extended => next (R := R) fun _ nameType => step fun _ =>
      next (R := R) fun _ question => next (R := R) fun _ value => step fun _ => ?_
  have parameter : R.Holds .bare d (Node.typeParameter key (some constraint) none) :=
    .of_parts ⟨named, Holds.some.mpr extended, .none, trivial⟩
  have made : R.Whole d (.mappedType _ (.typeParameter key (some constraint) none) _ _ _) :=
    .of_parts ⟨readonlyToken, parameter, nameType, question, value, trivial⟩
  exact ite (step fun _ => step fun _ => pure made) (step fun _ => pure made)

theorem literalType_ensures : literalType.Ensures d (R.Whole d) := by
  refine step fun _ => ite ?_ (next (R := R) fun found fits => ?_)
  · exact step fun _ => pure (.of_parts ⟨holds_token _, trivial⟩)
  · split
    · exact pure (.of_parts ⟨Holds.some.mp fits, trivial⟩)
    · exact failHere

variable [Heeds R .bare d entityName]

theorem typeReference_ensures : (typeReference type).Ensures d (R.Whole d) :=
  next fun _ named => next fun _ arguments => pure (.of_parts ⟨named, arguments, trivial⟩)

theorem typeQuery_ensures : (typeQuery type).Ensures d (R.Whole d) :=
  step fun _ => next fun _ named => next fun _ arguments =>
    pure (.of_parts ⟨named, arguments, trivial⟩)

theorem wordType_ensures (k : Kind) : (wordType type k).Ensures d (R.Whole d) :=
  ite typeQuery_ensures (ite literalType_ensures (ite typeReference_ensures failHere))

theorem primaryType_ensures : (primaryType type).Ensures d (R.Whole d) := by
  have typeLiteral : (Node.typeLiteral <$> typeMembers type).Ensures d (R.Whole d) :=
    map Heeds.holds fun _ members => .of_parts ⟨members, trivial⟩
  refine step fun _ => step fun _ => ite (step fun _ => pure (.of_parts trivial)) ?_
  split
  · exact step fun _ => pure (.of_parts trivial)
  · refine .alternatives (balanced_parenthesisRules type) ?_
    simp only [List.forall_mem_cons]
    exact ⟨functionType_ensures, parenthesizedType_ensures, List.forall_mem_nil _⟩
  · exact functionType_ensures
  · exact constructorType_ensures
  · exact tupleType_ensures
  · exact step fun _ => ite mappedType_ensures typeLiteral
  · exact step fun _ => ite constructorType_ensures (wordType_ensures _)
  · exact wordType_ensures _

end

section

variable {type : Rule Nat Node} [Balanced type]

/-- What operators and what stands behind them ensure, of which each opens a level. -/
theorem operatorType_ensures {Q : Nat → Node → Prop} (inner : ∀ d, (postfixType type).Ensures d (Q d))
    (operated : ∀ d k n, Q d n → Q (d + 1) (.typeOperator k n)) (d : Nat) :
    (operatorType type).Ensures d (Q d) := by
  refine .bounded fun budget => ?_
  induction budget generalizing d with
  | nil => exact failHere
  | cons first budget ih =>
    rw [operatorTypeWithin_cons]
    refine step fun t => ite ?_ (inner d)
    refine step fun _ => bind (P := fun n => ∃ d', d = d' + 1 ∧ Q d' n) ?_ ?_
    · refine Ensures.nested fun d' eq => ?_
      exact (ih d').imp fun n operand => ⟨d', eq, operand⟩
    · rintro n ⟨d', rfl, operand⟩
      exact pure (operated d' _ n operand)

/-- What terms ensure that stand alone or are joined. -/
theorem terms_ensure {d : Nat} {separator : Kind} {join : List Node → Node} {term : Rule Nat Node}
    [Balanced term] {P Q : Node → Prop} (h : term.Ensures d P) (alone : ∀ n, P n → Q n)
    (joined : ∀ l, (∀ n ∈ l, P n) → Q (join l)) : (terms separator join term).Ensures d Q := by
  have behind : (many (optionalAfter separator term)).Ensures d (fun l => ∀ n ∈ l, P n) := by
    refine .each (step fun _ => ite (map h fun n read m is => ?_) (pure nofun))
    exact Option.some.inj is ▸ read
  refine step fun _ => bind h fun first read => bind behind fun others each => pure ?_
  split
  · exact alone first read
  · exact joined _ (List.forall_mem_cons.mpr ⟨read, each⟩)

end

/-- Types heed a regime if each does that is put together from types that heed it. -/
theorem heeds_type {R : Regime} (put : ∀ (type : Rule Nat Node) [Balanced type]
    [∀ d, Heeds R .bare d type] (d : Nat), (unionType type).Ensures d fun n => R.Holds .bare (d + 1) n)
    (d : Nat) : Heeds R .bare d type := by
  refine ⟨.bounded fun budget => ?_⟩
  induction budget generalizing d with
  | nil => exact failHere
  | cons _ budget ih =>
    have : ∀ d, Heeds R .bare d (typeWithin budget : Rule Nat Node) := fun d => ⟨ih d⟩
    refine (Ensures.nested (r := unionType (typeWithin budget)) ?_ :)
    rintro d' rfl
    exact put (typeWithin budget) d'

end Grammar

/-- A regime that the rules for types and for dotted names heed. -/
class Regime.Typed (R : Regime) : Prop extends R.Lawful where
  entityName : ∀ d, Rule.Heeds R .bare d Grammar.entityName
  type : ∀ d, Rule.Heeds R .bare d Grammar.type

attribute [instance] Regime.Typed.entityName Regime.Typed.type

end Ambient

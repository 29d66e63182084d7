import Mathlib.Tactic.Common
import Ambient.Grammar.Statement

namespace Ambient

namespace Rule

theorem bind_apply {L α β : Type} (r : Rule L α) (f : α → Rule L β) (o : Options) (s : State L) :
    (r >>= f) o s = match r o s with
      | (.ok a, t) => f a o t
      | (.error e, t) => (.error e, t) := rfl

theorem enterLevel_of_lt {o : Options} {s : State Nat} (free : s.depth < o.depthLimit) :
    enterLevel o s = (.ok (), { s with depth := s.depth + 1 }) := if_neg (Nat.not_le.mpr free)

theorem enterLevel_of_le {o : Options} {s : State Nat} (full : o.depthLimit ≤ s.depth) :
    enterLevel o s = (.error (s.stream.current.failure .typeExpected []), s) := if_pos full

/-- Runs a rule and sets the number of levels behind it, by the number in front of it and behind it. -/
def settingLevels {α : Type} (f : Nat → Nat → Nat) (r : Rule Nat α) : Rule Nat α := fun o s =>
  let (a, t) := r o s
  (a, { t with depth := f s.depth t.depth })

/-- A rule closes all levels that it opens, however it ends. -/
class Balanced {α : Type} (r : Rule Nat α) : Prop where
  depth_eq : ∀ o s, (r o s).2.depth = s.depth

end Rule

namespace Rule.Balanced

open Rule

variable {α β : Type}

instance pure (a : α) : Balanced (pure a : Rule Nat α) := ⟨fun _ _ => rfl⟩

instance bind (r : Rule Nat α) (f : α → Rule Nat β) [Balanced r] [∀ a, Balanced (f a)] :
    Balanced (r >>= f) := by
  refine ⟨fun o s => ?_⟩
  have first : (r o s).2.depth = s.depth := depth_eq o s
  rw [bind_apply]
  split
  · rename_i a t eq
    rw [eq] at first
    rw [depth_eq (r := f a), first]
  · rename_i e t eq
    rw [eq] at first
    exact first

theorem bind_of {r : Rule Nat α} {f : α → Rule Nat β} [Balanced r] (each : ∀ a, Balanced (f a)) :
    Balanced (r >>= f) := bind r f

instance map (g : α → β) (r : Rule Nat α) [Balanced r] : Balanced (g <$> r) :=
  bind r fun a => Pure.pure (g a)

instance ite (c : Prop) [Decidable c] (r r' : Rule Nat α) [Balanced r] [Balanced r'] :
    Balanced (if c then r else r') := by
  split <;> infer_instance

instance fail (f : Failure) : Balanced (fail f : Rule Nat α) := ⟨fun _ _ => rfl⟩

instance failHere (m : Message) (arguments : List String) :
    Balanced (failHere m arguments : Rule Nat α) := ⟨fun _ _ => rfl⟩

instance current : Balanced current := ⟨fun _ _ => rfl⟩

instance advance : Balanced advance := ⟨fun _ _ => rfl⟩

instance documentationHere : Balanced documentationHere := ⟨fun _ _ => rfl⟩

instance atKind (k : Kind) : Balanced (atKind k) := by unfold Rule.atKind; infer_instance

instance atKindOnLine (k : Kind) : Balanced (atKindOnLine k) := by
  unfold Rule.atKindOnLine; infer_instance

instance accept (k : Kind) : Balanced (accept k) := by unfold Rule.accept; infer_instance

instance token? (k : Kind) : Balanced (token? k) := by unfold Rule.token?; infer_instance

instance expect (k : Kind) : Balanced (expect k) := by unfold Rule.expect; infer_instance

instance optionalAfter (k : Kind) (r : Rule Nat α) [Balanced r] : Balanced (optionalAfter k r) := by
  unfold Rule.optionalAfter; infer_instance

instance semicolon : Balanced semicolon := by unfold Rule.semicolon; infer_instance

instance lookAhead (r : Rule Nat α) [Balanced r] : Balanced (lookAhead r) :=
  ⟨fun o s => depth_eq (r := r) o s⟩

theorem alternativesFrom (best : Option Furthest) (fallback : Message) (rules : List (Rule Nat α))
    (each : ∀ r ∈ rules, Balanced r) : Balanced (alternativesFrom best fallback rules) := by
  refine ⟨fun o s => ?_⟩
  induction rules generalizing best s with
  | nil => cases best <;> rfl
  | cons r rules ih =>
    obtain ⟨first, others⟩ := List.forall_mem_cons.mp each
    have kept := first.depth_eq o s
    unfold Rule.alternativesFrom
    split
    · rename_i a t eq
      rw [eq] at kept
      exact kept
    · rename_i e t eq
      rw [eq] at kept
      rw [ih _ others]
      exact kept

theorem alternatives {rules : List (Rule Nat α)} {fallback : Message}
    (each : ∀ r ∈ rules, Balanced r) : Balanced (alternatives rules fallback) :=
  alternativesFrom none fallback rules each

instance closingLevels (r : Rule Nat α) : Balanced (closingLevels r) := ⟨fun _ _ => rfl⟩

/-- Where a rule closes the levels that it opens, closing the level that was opened for it leads back
to as many levels as there were. -/
theorem nested_eq (r : Rule Nat α) [Balanced r] :
    nested r = Rule.closingLevels (do enterLevel; r) := by
  funext o s
  simp only [Rule.nested, Rule.closingLevels, bind_apply]
  by_cases full : o.depthLimit ≤ s.depth
  · simp only [enterLevel_of_le full]
    rfl
  · have kept := depth_eq (r := r) o { s with depth := s.depth + 1 }
    simp only [enterLevel_of_lt (Nat.not_le.mp full), leavingLevel, kept]
    rfl

instance nested (r : Rule Nat α) [Balanced r] : Balanced (nested r) := by
  rw [nested_eq]
  infer_instance

instance bounded (r : Budget → Rule Nat α) [∀ budget, Balanced (r budget)] : Balanced (bounded r) :=
  ⟨fun o s => depth_eq (r := r s.stream.toList) o s⟩

instance iterateWithin (step : β → Rule Nat (Option β)) [∀ b, Balanced (step b)] (budget : Budget)
    (b : β) : Balanced (iterateWithin step budget b) := by
  refine ⟨fun o s => ?_⟩
  induction budget generalizing b s with
  | nil => rfl
  | cons _ budget ih =>
    have kept : (step b o s).2.depth = s.depth := depth_eq o s
    unfold Rule.iterateWithin
    split
    · rename_i b' t eq
      rw [eq] at kept
      rw [ih b', kept]
    · rename_i t eq
      rw [eq] at kept
      exact kept
    · rename_i e t eq
      rw [eq] at kept
      exact kept

instance iterate (step : β → Rule Nat (Option β)) [∀ b, Balanced (step b)] (b : β) :
    Balanced (iterate step b) :=
  bounded fun budget => Rule.iterateWithin step budget b

instance many (item : Rule Nat (Option α)) [Balanced item] : Balanced (many item) := by
  unfold Rule.many; infer_instance

instance delimited (close : Kind) (trailing : Bool) (element : Rule Nat α) [Balanced element] :
    Balanced (delimited close trailing element) := by unfold Rule.delimited; infer_instance

instance skipSemicolons : Balanced skipSemicolons := by
  unfold Rule.skipSemicolons; infer_instance

end Rule.Balanced

namespace Grammar

open Rule

-- a rule has as many instances as parts
set_option synthInstance.maxSize 1000

instance (allowed : Kind → Bool) (comment : Option String) :
    Balanced (identifierOf allowed comment) := by unfold identifierOf; infer_instance

instance (comment : Option String) : Balanced (name comment) := by unfold name; infer_instance

instance (comment : Option String) : Balanced (anyName comment) := by
  unfold anyName; infer_instance

instance : Balanced literal? := by unfold literal?; infer_instance

instance : Balanced stringLiteral := by unfold stringLiteral; infer_instance

instance : Balanced entityName := by unfold entityName; infer_instance

instance (comment : Option String) : Balanced (propertyName comment) := by
  refine .bind_of fun t => ?_
  split
  · infer_instance
  · refine .bind_of fun found => ?_
    split <;> infer_instance

instance (kinds : Kind → Bool) : Balanced (atModifier kinds) := by
  unfold atModifier; infer_instance

instance {α : Type} (m : Message) : Balanced (failAtKeyword m : Rule Nat α) := by
  unfold failAtKeyword; infer_instance

instance (allowed : List Kind) : Balanced (modifiers allowed) := by
  unfold modifiers; infer_instance

instance (m : Message) (exempted : Kind → Bool) : Balanced (refuseModifier m exempted) := by
  unfold refuseModifier; infer_instance

instance (allowed : List Kind) : Balanced (declarationModifiers allowed) := by
  unfold declarationModifiers; infer_instance

instance : Balanced memberModifiers := by unfold memberModifiers; infer_instance

section

variable (type : Rule Nat Node) [Balanced type]

instance : Balanced (typeArguments type) := by unfold typeArguments; infer_instance

instance : Balanced (typeArgumentsOnLine type) := by unfold typeArgumentsOnLine; infer_instance

instance : Balanced (typeParameter type) := by unfold typeParameter; infer_instance

instance : Balanced (typeParameters type) := by unfold typeParameters; infer_instance

instance : Balanced parameterName := by unfold parameterName; infer_instance

instance : Balanced (parameter type) := by unfold parameter; infer_instance

instance : Balanced (listedParameter type) := by unfold listedParameter; infer_instance

instance : Balanced (parameters type) := by unfold parameters; infer_instance

instance : Balanced predicateSubject := by unfold predicateSubject; infer_instance

instance : Balanced atAssertion := by unfold atAssertion; infer_instance

instance : Balanced atPredicate := by unfold atPredicate; infer_instance

instance : Balanced (resultType type) := by unfold resultType; infer_instance

instance : Balanced (annotatedResult type) := by unfold annotatedResult; infer_instance

instance (missing : Message) : Balanced (annotatedType type missing) := by
  unfold annotatedType; infer_instance

instance (ms : Option (List Node)) : Balanced (indexSignature type ms) := by
  unfold indexSignature; infer_instance

instance : Balanced (heritageType type) := by unfold heritageType; infer_instance

instance : Balanced acceptHeritage := by unfold acceptHeritage; infer_instance

instance : Balanced (heritage type) := by unfold heritage; infer_instance

instance : Balanced memberEnd := by unfold memberEnd; infer_instance

instance : Balanced (indexMember type) := by unfold indexMember; infer_instance

instance : Balanced (callSignature type) := by unfold callSignature; infer_instance

instance : Balanced (constructSignature type) := by unfold constructSignature; infer_instance

instance : Balanced (propertySignature type) := by unfold propertySignature; infer_instance

instance : Balanced (methodSignature type) := by unfold methodSignature; infer_instance

theorem balanced_typeMemberRules : ∀ r ∈ [indexMember type, callSignature type,
    constructSignature type, propertySignature type, methodSignature type], Balanced r := by
  simp only [List.forall_mem_cons, List.not_mem_nil, false_imp_iff, implies_true, and_true]
  refine ⟨?_, ?_, ?_, ?_, ?_⟩ <;> infer_instance

instance : Balanced (typeMember type) :=
  .bind_of fun _ => .alternatives (balanced_typeMemberRules type)

instance : Balanced atBlockEnd := by unfold atBlockEnd; infer_instance

instance : Balanced (typeMembers type) := by unfold typeMembers; infer_instance

instance : Balanced (constructorMember type) := by unfold constructorMember; infer_instance

instance : Balanced (classIndexMember type) := by unfold classIndexMember; infer_instance

instance : Balanced (propertyMember type) := by unfold propertyMember; infer_instance

instance : Balanced (methodMember type) := by unfold methodMember; infer_instance

theorem balanced_classMemberRules : ∀ r ∈ [constructorMember type, classIndexMember type,
    propertyMember type, methodMember type], Balanced r := by
  simp only [List.forall_mem_cons, List.not_mem_nil, false_imp_iff, implies_true, and_true]
  refine ⟨?_, ?_, ?_, ?_⟩ <;> infer_instance

instance : Balanced (classMember type) := .alternatives (balanced_classMemberRules type)

instance : Balanced (classMembers type) := by unfold classMembers; infer_instance

instance : Balanced (typeReference type) := by unfold typeReference; infer_instance

instance : Balanced (typeQuery type) := by unfold typeQuery; infer_instance

instance : Balanced (arrowResult type) := by unfold arrowResult; infer_instance

instance : Balanced (functionType type) := by unfold functionType; infer_instance

instance : Balanced (constructorType type) := by unfold constructorType; infer_instance

instance : Balanced (parenthesizedType type) := by unfold parenthesizedType; infer_instance

instance : Balanced atLabel := by unfold atLabel; infer_instance

instance : Balanced (labelledElement type) := by unfold labelledElement; infer_instance

instance : Balanced (tupleElement type) := by unfold tupleElement; infer_instance

instance : Balanced (tupleType type) := by unfold tupleType; infer_instance

instance : Balanced atMappedType := by unfold atMappedType; dsimp only; infer_instance

instance (k : Kind) : Balanced (signed k) := by unfold signed; infer_instance

instance : Balanced (mappedType type) := by unfold mappedType; dsimp only; infer_instance

instance : Balanced literalType := by
  refine .bind_of fun t => ?_
  dsimp only
  split
  · infer_instance
  · refine .bind_of fun found => ?_
    split <;> infer_instance

instance (k : Kind) : Balanced (nextIs k) := by unfold nextIs; infer_instance

instance (k : Kind) : Balanced (wordType type k) := by unfold wordType; infer_instance

theorem balanced_parenthesisRules :
    ∀ r ∈ [functionType type, parenthesizedType type], Balanced r := by
  simp only [List.forall_mem_cons, List.not_mem_nil, false_imp_iff, implies_true, and_true]
  refine ⟨?_, ?_⟩ <;> infer_instance

/-- The type that starts with a token of kind `k`. -/
abbrev primaryTypeAt (type : Rule Nat Node) (k : Kind) : Rule Nat Node := do
  if k.isKeywordType && !(← nextIs .dotToken) then
    advance
    return .keywordType k
  else match k with
    | .thisKeyword => do
      advance
      return .thisType
    | .openParenToken => alternatives [functionType type, parenthesizedType type] .typeExpected
    | .lessThanToken => functionType type
    | .newKeyword => constructorType type
    | .openBracketToken => tupleType type
    | .openBraceToken => do
      if ← atMappedType then mappedType type else .typeLiteral <$> typeMembers type
    | .abstractKeyword => do
      if ← nextIs .newKeyword then constructorType type else wordType type k
    | k => wordType type k

instance : Balanced (primaryType type) := by
  refine .bind_of fun t => .bind_of fun dotted => ?_
  split
  · infer_instance
  · split
    · infer_instance
    · exact .alternatives (balanced_parenthesisRules type)
    all_goals infer_instance

instance : Balanced (postfixType type) := by unfold postfixType; infer_instance

/-- A type behind an operator. -/
abbrev operated {L : Type} [Counter L] (type : Rule L Node) (budget : Budget) (k : Kind) :
    Rule L Node := do
  advance
  return .typeOperator k (← nested (operatorTypeWithin type budget))

/-- The type that starts with a token of kind `k`, which may be an operator. -/
abbrev operatorTypeAt {L : Type} [Counter L] (type : Rule L Node) (budget : Budget) (k : Kind) :
    Rule L Node :=
  if k.isTypeOperator then operated type budget k else postfixType type

theorem operatorTypeWithin_cons {L : Type} [Counter L] (type : Rule L Node) (first : Lexeme)
    (budget : Budget) : operatorTypeWithin type (first :: budget) =
      (Rule.current >>= fun t => operatorTypeAt type budget t.kind : Rule L Node) := by
  funext o s
  rw [bind_apply]
  simp only [operatorTypeWithin, operatorTypeAt, Rule.current]
  split <;> rfl

instance (budget : Budget) : Balanced (operatorTypeWithin type budget) := by
  induction budget with
  | nil => exact .failHere .typeExpected []
  | cons first budget ih =>
    have : Balanced (nested (operatorTypeWithin type budget)) := .nested _
    rw [operatorTypeWithin_cons]
    infer_instance

instance (budget : Budget) : Balanced (nested (operatorTypeWithin type budget)) := .nested _

instance : Balanced (operatorType type) :=
  .bounded (α := Node) (operatorTypeWithin type)

instance (separator : Kind) (join : List Node → Node) (term : Rule Nat Node) [Balanced term] :
    Balanced (terms separator join term) := by unfold terms; infer_instance

instance : Balanced (intersectionType type) := by unfold intersectionType; infer_instance

instance balanced_unionType : Balanced (unionType type) := by unfold unionType; infer_instance

end

instance (budget : Budget) : Balanced (typeWithin budget) := by
  induction budget with
  | nil => exact .failHere .typeExpected []
  | cons _ budget ih =>
    have : Balanced (unionType (typeWithin budget)) := @balanced_unionType _ ih
    exact .nested _

instance (budget : Budget) : Balanced (unionType (typeWithin budget)) :=
  balanced_unionType (typeWithin budget)

instance : Balanced type := .bounded (α := Node) typeWithin

instance (allowed : List Kind) : Balanced (declarationHead allowed) := by
  unfold declarationHead; infer_instance

instance : Balanced interfaceDeclaration := by unfold interfaceDeclaration; infer_instance

instance : Balanced classDeclaration := by unfold classDeclaration; infer_instance

instance : Balanced typeAlias := by unfold typeAlias; infer_instance

instance : Balanced enumValue := by
  refine .bind_of fun found => ?_
  split <;> infer_instance

instance : Balanced enumMember := by unfold enumMember; infer_instance

instance : Balanced enumDeclaration := by unfold enumDeclaration; infer_instance

instance : Balanced functionDeclaration := by unfold functionDeclaration; infer_instance

instance (comment : Option String) : Balanced (variableDeclaration comment) := by
  unfold variableDeclaration; infer_instance

instance (comment : Option String) : Balanced (variableList comment) := by
  unfold variableList; infer_instance

instance : Balanced variableStatement := by
  refine .bind_of fun head => .bind_of fun t => ?_
  split <;> infer_instance

instance (follows : Kind → Bool) : Balanced (acceptTypeOnly follows) := by
  unfold acceptTypeOnly; infer_instance

instance (make : Bool → Option Node → Node → Node) : Balanced (specifier make) := by
  refine .bind_of fun isTypeOnly => .bind_of fun first => .bind_of fun second => ?_
  split <;> infer_instance

instance (make : Bool → Option Node → Node → Node) : Balanced (specifiers make) := by
  unfold specifiers; infer_instance

instance : Balanced importBindings := by unfold importBindings; infer_instance

instance : Balanced importClause := by unfold importClause; infer_instance

instance : Balanced importDeclaration := by unfold importDeclaration; infer_instance

instance : Balanced exportDeclaration := by unfold exportDeclaration; infer_instance

instance : Balanced exportAssignment := by unfold exportAssignment; infer_instance

instance : Balanced namespaceExport := by unfold namespaceExport; infer_instance

section

variable (statement : Rule Nat Node) [Balanced statement]

instance (close : Kind) : Balanced (statementsUntil statement close) := by
  unfold statementsUntil; infer_instance

instance : Balanced (moduleBlock statement) := by unfold moduleBlock; infer_instance

instance (budget : Budget) (flags : UInt32) (ms : Option (List Node)) (comment : Option String) :
    Balanced (namespaceWithin statement budget flags ms comment) := by
  induction budget generalizing flags ms comment with
  | nil => exact .failHere .identifierExpected []
  | cons _ budget ih =>
    have inner := ih (innerFlags flags) none none
    have : Balanced (nested (namespaceWithin statement budget (innerFlags flags) none none)) :=
      .nested _
    refine .bind_of fun declared => .bind_of fun found => ?_
    split <;> infer_instance

instance (budget : Budget) (flags : UInt32) (ms : Option (List Node)) (comment : Option String) :
    Balanced (nested (namespaceWithin statement budget flags ms comment)) := .nested _

instance (ms : Option (List Node)) : Balanced (quotedModule statement ms) := by
  unfold quotedModule; infer_instance

instance : Balanced (moduleDeclaration statement) := by
  refine .bind_of fun head => .bind_of fun t => ?_
  split
  · infer_instance
  · refine .bind_of fun _ => .bind_of fun quoted => ?_
    split
    · infer_instance
    · exact .bounded (α := Node) fun budget => namespaceWithin statement budget _ _ _

instance : Balanced (globalBlock statement) := by unfold globalBlock; infer_instance

theorem balanced_statementRules : ∀ r ∈ statementRules statement, Balanced r := by
  simp only [statementRules, List.forall_mem_cons, List.not_mem_nil, false_imp_iff, implies_true,
    and_true]
  refine ⟨?_, ?_, ?_, ?_, ?_, ?_, ?_, ?_, ?_, ?_, ?_, ?_⟩ <;> infer_instance

end

instance (budget : Budget) : Balanced (statementWithin budget) := by
  induction budget with
  | nil => exact .failHere .statementExpected []
  | cons _ budget ih =>
    have : Balanced (alternatives (statementRules (statementWithin budget)) .statementExpected) :=
      .alternatives (balanced_statementRules _)
    exact .nested _

instance (budget : Budget) (fallback : Message) :
    Balanced (alternatives (statementRules (statementWithin budget)) fallback) :=
  .alternatives (balanced_statementRules (statementWithin budget))

instance : Balanced statement := .bounded (α := Node) statementWithin

end Grammar

end Ambient

import Ambient.Parse
import Ambient.Proofs.Level.Ledger

namespace Ambient

namespace Grammar

open Rule

set_option synthInstance.maxSize 1000

instance (allowed : Kind → Bool) (comment : Option String) :
    Noted (identifierOf allowed comment) (identifierOf allowed comment) := by
  unfold identifierOf; infer_instance

instance (comment : Option String) : Noted (name comment) (name comment) := by
  unfold name; infer_instance

instance (comment : Option String) : Noted (anyName comment) (anyName comment) := by
  unfold anyName; infer_instance

instance : Noted literal? literal? := by unfold literal?; infer_instance

instance : Noted stringLiteral stringLiteral := by unfold stringLiteral; infer_instance

instance : Noted entityName entityName := by unfold entityName; infer_instance

instance (comment : Option String) : Noted (propertyName comment) (propertyName comment) := by
  refine .bind_of fun t => ?_
  split
  · infer_instance
  · refine .bind_of fun found => ?_
    split <;> infer_instance

instance (kinds : Kind → Bool) : Noted (atModifier kinds) (atModifier kinds) := by
  unfold atModifier; infer_instance

instance {α : Type} (m : Message) : Noted (failAtKeyword m : Rule Ledger α) (failAtKeyword m) := by
  unfold failAtKeyword; infer_instance

instance (allowed : List Kind) : Noted (modifiers allowed) (modifiers allowed) := by
  unfold modifiers; infer_instance

instance (m : Message) (exempted : Kind → Bool) :
    Noted (refuseModifier m exempted) (refuseModifier m exempted) := by
  unfold refuseModifier; infer_instance

instance (allowed : List Kind) :
    Noted (declarationModifiers allowed) (declarationModifiers allowed) := by
  unfold declarationModifiers; infer_instance

instance : Noted memberModifiers memberModifiers := by unfold memberModifiers; infer_instance

section

variable (type' : Rule Ledger Node) (type : Rule Nat Node) [Noted type' type]

instance : Noted (typeArguments type') (typeArguments type) := by
  unfold typeArguments; infer_instance

instance : Noted (typeArgumentsOnLine type') (typeArgumentsOnLine type) := by
  unfold typeArgumentsOnLine; infer_instance

instance : Noted (typeParameter type') (typeParameter type) := by
  unfold typeParameter; infer_instance

instance : Noted (typeParameters type') (typeParameters type) := by
  unfold typeParameters; infer_instance

instance : Noted parameterName parameterName := by unfold parameterName; infer_instance

instance : Noted (parameter type') (parameter type) := by unfold parameter; infer_instance

instance : Noted (listedParameter type') (listedParameter type) := by
  unfold listedParameter; infer_instance

instance : Noted (parameters type') (parameters type) := by unfold parameters; infer_instance

instance : Noted predicateSubject predicateSubject := by unfold predicateSubject; infer_instance

instance : Noted atAssertion atAssertion := by unfold atAssertion; infer_instance

instance : Noted atPredicate atPredicate := by unfold atPredicate; infer_instance

instance : Noted (resultType type') (resultType type) := by unfold resultType; infer_instance

instance : Noted (annotatedResult type') (annotatedResult type) := by
  unfold annotatedResult; infer_instance

instance (missing : Message) : Noted (annotatedType type' missing) (annotatedType type missing) := by
  unfold annotatedType; infer_instance

instance (ms : Option (List Node)) : Noted (indexSignature type' ms) (indexSignature type ms) := by
  unfold indexSignature; infer_instance

instance : Noted (heritageType type') (heritageType type) := by unfold heritageType; infer_instance

instance : Noted acceptHeritage acceptHeritage := by unfold acceptHeritage; infer_instance

instance : Noted (heritage type') (heritage type) := by unfold heritage; infer_instance

instance : Noted memberEnd memberEnd := by unfold memberEnd; infer_instance

instance : Noted (indexMember type') (indexMember type) := by unfold indexMember; infer_instance

instance : Noted (callSignature type') (callSignature type) := by
  unfold callSignature; infer_instance

instance : Noted (constructSignature type') (constructSignature type) := by
  unfold constructSignature; infer_instance

instance : Noted (propertySignature type') (propertySignature type) := by
  unfold propertySignature; infer_instance

instance : Noted (methodSignature type') (methodSignature type) := by
  unfold methodSignature; infer_instance

instance : Noted (typeMember type') (typeMember type) := by
  refine .bind_of fun _ => .alternatives ?_
  simp only [List.forall₂_cons, List.Forall₂.nil, and_true]
  refine ⟨?_, ?_, ?_, ?_, ?_⟩ <;> infer_instance

instance : Noted atBlockEnd atBlockEnd := by unfold atBlockEnd; infer_instance

instance : Noted (typeMembers type') (typeMembers type) := by unfold typeMembers; infer_instance

instance : Noted (constructorMember type') (constructorMember type) := by
  unfold constructorMember; infer_instance

instance : Noted (classIndexMember type') (classIndexMember type) := by
  unfold classIndexMember; infer_instance

instance : Noted (propertyMember type') (propertyMember type) := by
  unfold propertyMember; infer_instance

instance : Noted (methodMember type') (methodMember type) := by unfold methodMember; infer_instance

instance : Noted (classMember type') (classMember type) := by
  refine .alternatives ?_
  simp only [List.forall₂_cons, List.Forall₂.nil, and_true]
  refine ⟨?_, ?_, ?_, ?_⟩ <;> infer_instance

instance : Noted (classMembers type') (classMembers type) := by unfold classMembers; infer_instance

instance : Noted (typeReference type') (typeReference type) := by
  unfold typeReference; infer_instance

instance : Noted (typeQuery type') (typeQuery type) := by unfold typeQuery; infer_instance

instance : Noted (arrowResult type') (arrowResult type) := by unfold arrowResult; infer_instance

instance : Noted (functionType type') (functionType type) := by unfold functionType; infer_instance

instance : Noted (constructorType type') (constructorType type) := by
  unfold constructorType; infer_instance

instance : Noted (parenthesizedType type') (parenthesizedType type) := by
  unfold parenthesizedType; infer_instance

instance : Noted atLabel atLabel := by unfold atLabel; infer_instance

instance : Noted (labelledElement type') (labelledElement type) := by
  unfold labelledElement; infer_instance

instance : Noted (tupleElement type') (tupleElement type) := by unfold tupleElement; infer_instance

instance : Noted (tupleType type') (tupleType type) := by unfold tupleType; infer_instance

instance : Noted atMappedType atMappedType := by unfold atMappedType; dsimp only; infer_instance

instance (k : Kind) : Noted (signed k) (signed k) := by unfold signed; infer_instance

instance : Noted (mappedType type') (mappedType type) := by
  unfold mappedType; dsimp only; infer_instance

instance : Noted literalType literalType := by
  refine .bind_of fun t => ?_
  dsimp only
  split
  · infer_instance
  · refine .bind_of fun found => ?_
    split <;> infer_instance

instance (k : Kind) : Noted (nextIs k) (nextIs k) := by unfold nextIs; infer_instance

instance (k : Kind) : Noted (wordType type' k) (wordType type k) := by
  unfold wordType; infer_instance

instance : Noted (primaryType type') (primaryType type) := by
  refine .bind_of fun t => .bind_of fun dotted => ?_
  split
  · infer_instance
  · split
    · infer_instance
    · refine .alternatives ?_
      simp only [List.forall₂_cons, List.Forall₂.nil, and_true]
      refine ⟨?_, ?_⟩ <;> infer_instance
    all_goals infer_instance

instance : Noted (postfixType type') (postfixType type) := by unfold postfixType; infer_instance

instance (separator : Kind) (join : List Node → Node) (term' : Rule Ledger Node)
    (term : Rule Nat Node) [Noted term' term] :
    Noted (terms separator join term') (terms separator join term) := by
  unfold terms; infer_instance

variable [Balanced type]

instance (budget : Budget) :
    Noted (operatorTypeWithin type' budget) (operatorTypeWithin type budget) := by
  induction budget with
  | nil => exact .failHere .typeExpected []
  | cons first budget ih =>
    have : Noted (nested (operatorTypeWithin type' budget))
        (nested (operatorTypeWithin type budget)) := .nested
    rw [operatorTypeWithin_cons, operatorTypeWithin_cons]
    infer_instance

instance : Noted (operatorType type') (operatorType type) := .bounded (α := Node)

instance : Noted (intersectionType type') (intersectionType type) := by
  unfold intersectionType; infer_instance

instance noted_unionType : Noted (unionType type') (unionType type) := by
  unfold unionType; infer_instance

end

instance (budget : Budget) :
    Noted (typeWithin budget : Rule Ledger Node) (typeWithin budget : Rule Nat Node) := by
  induction budget with
  | nil => exact .failHere .typeExpected []
  | cons _ budget ih =>
    have : Noted (unionType (typeWithin budget)) (unionType (typeWithin budget)) :=
      noted_unionType (typeWithin budget : Rule Ledger Node) (typeWithin budget)
    exact .nested

instance : Noted type type := .bounded (α := Node)

instance (allowed : List Kind) : Noted (declarationHead allowed) (declarationHead allowed) := by
  unfold declarationHead; infer_instance

instance : Noted interfaceDeclaration interfaceDeclaration := by
  unfold interfaceDeclaration; infer_instance

instance : Noted classDeclaration classDeclaration := by unfold classDeclaration; infer_instance

instance : Noted typeAlias typeAlias := by unfold typeAlias; infer_instance

instance : Noted enumValue enumValue := by
  refine .bind_of fun found => ?_
  split <;> infer_instance

instance : Noted enumMember enumMember := by unfold enumMember; infer_instance

instance : Noted enumDeclaration enumDeclaration := by unfold enumDeclaration; infer_instance

instance : Noted functionDeclaration functionDeclaration := by
  unfold functionDeclaration; infer_instance

instance (comment : Option String) :
    Noted (variableDeclaration comment) (variableDeclaration comment) := by
  unfold variableDeclaration; infer_instance

instance (comment : Option String) : Noted (variableList comment) (variableList comment) := by
  unfold variableList; infer_instance

instance : Noted variableStatement variableStatement := by
  refine .bind_of fun head => .bind_of fun t => ?_
  split <;> infer_instance

instance (follows : Kind → Bool) : Noted (acceptTypeOnly follows) (acceptTypeOnly follows) := by
  unfold acceptTypeOnly; infer_instance

instance (make : Bool → Option Node → Node → Node) : Noted (specifier make) (specifier make) := by
  refine .bind_of fun isTypeOnly => .bind_of fun first => .bind_of fun second => ?_
  split <;> infer_instance

instance (make : Bool → Option Node → Node → Node) : Noted (specifiers make) (specifiers make) := by
  unfold specifiers; infer_instance

instance : Noted importBindings importBindings := by unfold importBindings; infer_instance

instance : Noted importClause importClause := by unfold importClause; infer_instance

instance : Noted importDeclaration importDeclaration := by unfold importDeclaration; infer_instance

instance : Noted exportDeclaration exportDeclaration := by unfold exportDeclaration; infer_instance

instance : Noted exportAssignment exportAssignment := by unfold exportAssignment; infer_instance

instance : Noted namespaceExport namespaceExport := by unfold namespaceExport; infer_instance

section

variable (statement' : Rule Ledger Node) (statement : Rule Nat Node) [Noted statement' statement]

instance (close : Kind) :
    Noted (statementsUntil statement' close) (statementsUntil statement close) := by
  unfold statementsUntil; infer_instance

instance : Noted (moduleBlock statement') (moduleBlock statement) := by
  unfold moduleBlock; infer_instance

instance (ms : Option (List Node)) :
    Noted (quotedModule statement' ms) (quotedModule statement ms) := by
  unfold quotedModule; infer_instance

instance : Noted (globalBlock statement') (globalBlock statement) := by
  unfold globalBlock; infer_instance

variable [Balanced statement]

instance (budget : Budget) (flags : UInt32) (ms : Option (List Node)) (comment : Option String) :
    Noted (namespaceWithin statement' budget flags ms comment)
      (namespaceWithin statement budget flags ms comment) := by
  induction budget generalizing flags ms comment with
  | nil => exact .failHere .identifierExpected []
  | cons _ budget ih =>
    have inner := ih (innerFlags flags) none none
    have : Noted (nested (namespaceWithin statement' budget (innerFlags flags) none none))
        (nested (namespaceWithin statement budget (innerFlags flags) none none)) := .nested
    refine .bind_of fun declared => .bind_of fun found => ?_
    split <;> infer_instance

instance : Noted (moduleDeclaration statement') (moduleDeclaration statement) := by
  refine .bind_of fun head => .bind_of fun t => ?_
  split
  · infer_instance
  · refine .bind_of fun _ => .bind_of fun quoted => ?_
    split
    · infer_instance
    · exact .bounded (α := Node)

theorem noted_statementRules :
    List.Forall₂ Noted (statementRules statement') (statementRules statement) := by
  simp only [statementRules, List.forall₂_cons, List.Forall₂.nil, and_true]
  refine ⟨?_, ?_, ?_, ?_, ?_, ?_, ?_, ?_, ?_, ?_, ?_, ?_⟩ <;> infer_instance

end

instance (budget : Budget) :
    Noted (statementWithin budget : Rule Ledger Node) (statementWithin budget : Rule Nat Node) := by
  induction budget with
  | nil => exact .failHere .statementExpected []
  | cons _ budget ih =>
    have : Noted (alternatives (statementRules (statementWithin budget)) .statementExpected)
        (alternatives (statementRules (statementWithin budget)) .statementExpected) :=
      .alternatives (noted_statementRules _ _)
    exact .nested

instance : Noted statement statement := .bounded (α := Node)

instance : Noted sourceFile sourceFile := by unfold sourceFile; infer_instance

instance (r' : Rule Ledger Node) (r : Rule Nat Node) [Noted r' r] : Noted (entire r') (entire r) := by
  unfold entire; infer_instance

instance (entry : Entry) : Noted entry.rule entry.rule := by
  cases entry <;> unfold Entry.rule <;> infer_instance

end Grammar

end Ambient

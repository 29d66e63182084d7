import Ambient.Proofs.Level.Noted
import Ambient.Proofs.Parse.Reads

namespace Ambient

open Rule

/-- A rule for all that levels can be counted in. -/
abbrev Rule.Family (α : Type) : Type 1 := ∀ {L : Type} [Counter L], Rule L α

namespace Grammar

/-- The rule for types, as a whole or within a budget. -/
inductive IsType : Family Node → Prop where
  | whole : IsType type
  | within (budget : Budget) : IsType (typeWithin budget)

/-- The rule for statements, as a whole or within a budget. -/
inductive IsStatement : Family Node → Prop where
  | whole : IsStatement statement
  | within (budget : Budget) : IsStatement (statementWithin budget)

section

variable (type statement : Family Node)

/-- The rules of the grammar, for a rule for types and one for statements. -/
inductive IsRule : {α : Type} → Family α → Prop where
  | semicolon : IsRule semicolon
  | skipSemicolons : IsRule skipSemicolons
  | identifierOf (allowed : Kind → Bool) (comment : Option String) :
    IsRule (identifierOf allowed comment)
  | name (comment : Option String) : IsRule (name comment)
  | anyName (comment : Option String) : IsRule (anyName comment)
  | propertyName (comment : Option String) : IsRule (propertyName comment)
  | literal? : IsRule literal?
  | stringLiteral : IsRule stringLiteral
  | entityName : IsRule entityName
  | atModifier (kinds : Kind → Bool) : IsRule (atModifier kinds)
  | modifiers (allowed : List Kind) : IsRule (modifiers allowed)
  | refuseModifier (message : Message) (exempted : Kind → Bool) :
    IsRule (refuseModifier message exempted)
  | declarationModifiers (allowed : List Kind) : IsRule (declarationModifiers allowed)
  | memberModifiers : IsRule memberModifiers
  | typeArguments : IsRule (typeArguments type)
  | typeArgumentsOnLine : IsRule (typeArgumentsOnLine type)
  | typeParameter : IsRule (typeParameter type)
  | typeParameters : IsRule (typeParameters type)
  | parameterName : IsRule parameterName
  | parameter : IsRule (parameter type)
  | listedParameter : IsRule (listedParameter type)
  | parameters : IsRule (parameters type)
  | predicateSubject : IsRule predicateSubject
  | atAssertion : IsRule atAssertion
  | atPredicate : IsRule atPredicate
  | resultType : IsRule (resultType type)
  | annotatedResult : IsRule (annotatedResult type)
  | annotatedType (missing : Message) : IsRule (annotatedType type missing)
  | indexSignature (modifiers : Option (List Node)) : IsRule (indexSignature type modifiers)
  | heritageType : IsRule (heritageType type)
  | acceptHeritage : IsRule acceptHeritage
  | heritage : IsRule (heritage type)
  | memberEnd : IsRule memberEnd
  | indexMember : IsRule (indexMember type)
  | callSignature : IsRule (callSignature type)
  | constructSignature : IsRule (constructSignature type)
  | propertySignature : IsRule (propertySignature type)
  | methodSignature : IsRule (methodSignature type)
  | typeMember : IsRule (typeMember type)
  | atBlockEnd : IsRule atBlockEnd
  | typeMembers : IsRule (typeMembers type)
  | constructorMember : IsRule (constructorMember type)
  | classIndexMember : IsRule (classIndexMember type)
  | propertyMember : IsRule (propertyMember type)
  | methodMember : IsRule (methodMember type)
  | classMember : IsRule (classMember type)
  | classMembers : IsRule (classMembers type)
  | typeReference : IsRule (typeReference type)
  | typeQuery : IsRule (typeQuery type)
  | arrowResult : IsRule (arrowResult type)
  | functionType : IsRule (functionType type)
  | constructorType : IsRule (constructorType type)
  | parenthesizedType : IsRule (parenthesizedType type)
  | atLabel : IsRule atLabel
  | labelledElement : IsRule (labelledElement type)
  | tupleElement : IsRule (tupleElement type)
  | tupleType : IsRule (tupleType type)
  | atMappedType : IsRule atMappedType
  | signed (k : Kind) : IsRule (signed k)
  | mappedType : IsRule (mappedType type)
  | literalType : IsRule literalType
  | nextIs (k : Kind) : IsRule (nextIs k)
  | wordType (k : Kind) : IsRule (wordType type k)
  | primaryType : IsRule (primaryType type)
  | postfixType : IsRule (postfixType type)
  | operatorTypeWithin (budget : Budget) : IsRule (operatorTypeWithin type budget)
  | operatorType : IsRule (operatorType type)
  | intersectionType : IsRule (intersectionType type)
  | unionType : IsRule (unionType type)
  | type : IsRule type
  | declarationHead (allowed : List Kind) : IsRule (declarationHead allowed)
  | interfaceDeclaration : IsRule interfaceDeclaration
  | classDeclaration : IsRule classDeclaration
  | typeAlias : IsRule typeAlias
  | enumValue : IsRule enumValue
  | enumMember : IsRule enumMember
  | enumDeclaration : IsRule enumDeclaration
  | functionDeclaration : IsRule functionDeclaration
  | variableDeclaration (comment : Option String) : IsRule (variableDeclaration comment)
  | variableList (comment : Option String) : IsRule (variableList comment)
  | variableStatement : IsRule variableStatement
  | acceptTypeOnly (follows : Kind → Bool) : IsRule (acceptTypeOnly follows)
  | specifier (make : Bool → Option Node → Node → Node) : IsRule (specifier make)
  | specifiers (make : Bool → Option Node → Node → Node) : IsRule (specifiers make)
  | importBindings : IsRule importBindings
  | importClause : IsRule importClause
  | importDeclaration : IsRule importDeclaration
  | exportDeclaration : IsRule exportDeclaration
  | exportAssignment : IsRule exportAssignment
  | namespaceExport : IsRule namespaceExport
  | statementsUntil (close : Kind) : IsRule (statementsUntil statement close)
  | moduleBlock : IsRule (moduleBlock statement)
  | namespaceWithin (budget : Budget) (flags : UInt32) (modifiers : Option (List Node))
    (comment : Option String) :
    IsRule (namespaceWithin statement budget flags modifiers comment)
  | quotedModule (modifiers : Option (List Node)) : IsRule (quotedModule statement modifiers)
  | moduleDeclaration : IsRule (moduleDeclaration statement)
  | globalBlock : IsRule (globalBlock statement)
  | statement : IsRule statement
  | entry (entry : Entry) : IsRule entry.rule

end

variable {type statement : Family Node}

theorem IsType.noted (h : IsType @type) : Noted (type (L := Ledger)) (type (L := Nat)) := by
  cases h <;> infer_instance

theorem IsType.balanced (h : IsType @type) : Balanced (type (L := Nat)) := by
  cases h <;> infer_instance

theorem IsStatement.noted (h : IsStatement @statement) :
    Noted (statement (L := Ledger)) (statement (L := Nat)) := by
  cases h <;> infer_instance

theorem IsStatement.balanced (h : IsStatement @statement) : Balanced (statement (L := Nat)) := by
  cases h <;> infer_instance

section

variable {α : Type} {r : Family α} [Balanced (type (L := Nat))] [Balanced (statement (L := Nat))]

theorem IsRule.balanced (h : IsRule @type @statement @r) : Balanced (r (L := Nat)) := by
  cases h <;> infer_instance

theorem IsRule.noted [Noted (type (L := Ledger)) (type (L := Nat))]
    [Noted (statement (L := Ledger)) (statement (L := Nat))] (h : IsRule @type @statement @r) :
    Noted (r (L := Ledger)) (r (L := Nat)) := by
  cases h <;> infer_instance

end

end Grammar

/-- A rule leaves as many levels open as it finds, however it ends. A run of it in which the levels are
noted down comes to the same, and by the notes the levels of its start stay open all the way, and there
are never more than allowed. -/
structure Rule.Disciplined {α : Type} (r : Family α) : Prop where
  depth_eq : ∀ (o : Options) (s : State Nat), (r o s).2.depth = s.depth
  plain_eq : ∀ (o : Options) (s : State Ledger), ((r o s).1, (r o s).2.plain) = r o s.plain
  between : ∀ (o : Options) (s : State Ledger), s.depth.count ≤ o.depthLimit →
    s.depth.Within (r o s).2.depth o.depthLimit

/-- If no alternative succeeds, the tokens are the same as before. -/
theorem Rule.alternativesFrom_error {L α : Type} {rules : List (Rule L α)} {fallback : Message}
    {best : Option Furthest} {o : Options} {s t : State L} {e : Failure}
    (h : alternativesFrom best fallback rules o s = (.error e, t)) : t.stream = s.stream := by
  induction rules generalizing best s with
  | nil =>
    cases best with
    | none => exact congrArg (fun ran => ran.2.stream) h.symm
    | some => exact congrArg (fun ran => ran.2.stream) h.symm
  | cons r rules ih =>
    simp only [alternativesFrom] at h
    split at h
    · cases h
    · have kept := ih h
      exact kept

/-- A failed attempt leaves nothing behind: every rule closes the levels that it opens, of which there
are never more than allowed, and looking ahead and alternatives that fail leave the tokens as they
were. -/
theorem leaves_no_trace :
    (∀ {type statement : Family Node}, Grammar.IsType @type → Grammar.IsStatement @statement →
      ∀ {α : Type} (r : Family α), Grammar.IsRule @type @statement @r → Rule.Disciplined @r) ∧
    (∀ {L α : Type} (r : Rule L α) (o : Options) (s : State L),
      (lookAhead r o s).2.stream = s.stream) ∧
    ∀ {L α : Type} (rules : List (Rule L α)) (fallback : Message) (o : Options) (s t : State L)
      (e : Failure), alternatives rules fallback o s = (.error e, t) → t.stream = s.stream := by
  refine ⟨?_, ?_, ?_⟩
  · intro type statement isType isStatement α r isRule
    have := isType.balanced
    have := isType.noted
    have := isStatement.balanced
    have := isStatement.noted
    have balanced := isRule.balanced
    have noted := isRule.noted
    exact ⟨balanced.depth_eq, noted.plain_eq, noted.within⟩
  · intro L α r o s
    rfl
  · intro L α rules fallback o s t e failed
    exact alternativesFrom_error failed

/-- One level too few for the type: the alternatives fail at the start of the statement, and one level
is open behind it as in front. On the way a second level was opened for the statement, and the third
one, for the type, was refused. -/
theorem leaves_no_trace_aliasTooDeep :
    let o : Options := ⟨some 2, none⟩
    let s : State Ledger := ⟨Stream.ofText "type T = A", ⟨1, []⟩⟩
    let rules : List (Rule Nat Node) := Grammar.statementRules Grammar.statement
    (∃ e t, alternatives rules .statementExpected o ⟨s.stream, 2⟩ = (.error e, t) ∧
      t.stream = s.stream) ∧
    (∃ e t, Grammar.statement o s.plain = (.error e, t) ∧ t.depth = 1) ∧
    (Grammar.statement o s).2.depth.passed = [1, 2] ∧
    s.depth.Within (Grammar.statement o s).2.depth 2 := by
  intro o s rules
  have failed : (alternatives rules .statementExpected o ⟨s.stream, 2⟩).1.toOption = none := by
    decide +kernel
  have refused : (Grammar.statement o s.plain).1.toOption = none := by decide +kernel
  have noted : (Grammar.statement o s).2.depth.passed = [1, 2] := by decide +kernel
  have disciplined : Rule.Disciplined Grammar.statement :=
    leaves_no_trace.1 .whole .whole Grammar.statement .statement
  refine ⟨?_, ?_, noted, disciplined.between o s (by decide)⟩
  · rcases ran : alternatives rules .statementExpected o ⟨s.stream, 2⟩ with ⟨e | n, t⟩
    · have kept := leaves_no_trace.2.2 rules _ o _ t e ran
      exact ⟨e, t, rfl, kept⟩
    · rw [ran] at failed
      cases failed
  · have depth := disciplined.depth_eq o s.plain
    rcases ran : Grammar.statement o s.plain with ⟨e | n, t⟩
    · rw [ran] at depth
      exact ⟨e, t, rfl, depth⟩
    · rw [ran] at refused
      cases refused

end Ambient

import Ambient.Parse
import Ambient.Proofs.Ground.Type

namespace Ambient.Grammar

open Rule Walks

variable {G : Ground} [laws : G.Lawful] {x y z : Bool}

set_option synthInstance.maxSize 1000

instance {allowed : List Kind} [Holds (allowed.all Kind.isFirm)] :
    Walks G x y x (declarationHead allowed) (declarationHead allowed) := by
  unfold declarationHead
  infer_instance

instance : Walks G x y z interfaceDeclaration interfaceDeclaration := by
  unfold interfaceDeclaration
  infer_instance

instance : Walks G x y z classDeclaration classDeclaration := by
  unfold classDeclaration
  infer_instance

instance : Walks G x y z typeAlias typeAlias := by
  unfold typeAlias
  infer_instance

instance : Walks G x y z enumValue enumValue :=
  literal_walks (fun _ => inferInstance) inferInstance

instance : Walks G x y z enumMember enumMember := by
  unfold enumMember
  infer_instance

instance : Walks G x y z enumDeclaration enumDeclaration := by
  unfold enumDeclaration
  infer_instance

instance : Walks G x y z functionDeclaration functionDeclaration := by
  unfold functionDeclaration
  infer_instance

instance {comment : Option String} :
    Walks G x y z (variableDeclaration comment) (variableDeclaration comment) := by
  unfold variableDeclaration
  infer_instance

instance {comment : Option String} :
    Walks G x y z (variableList comment) (variableList comment) := by
  unfold variableList
  infer_instance

theorem isFirm_of_variableFlags (k : Kind) (flags : UInt32) (h : variableFlags k = some flags) :
    k.isFirm = true := by
  revert h
  fun_cases variableFlags k <;> simp

instance : Walks G x y z variableStatement variableStatement := by
  refine step fun head => current_cases fun t genuine => ?_
  cases found : variableFlags t.kind with
  | none => exact .inl inferInstance
  | some flags => exact .inr ⟨genuine.firm (isFirm_of_variableFlags _ flags found), inferInstance⟩

instance {follows : Kind → Bool} : Walks G x y x (acceptTypeOnly follows) (acceptTypeOnly follows) := by
  have vouches : Vouches (Rule.lookAhead do
      if ← Rule.accept .typeKeyword then return follows (← Rule.current).kind else return false) := by
    refine .of_kind fun {o s} found => ?_
    by_cases is : s.stream.current.kind = .typeKeyword
    · rw [is]
    · have nothing := (Gives.bind (f := fun b => if b = true then
        Rule.current >>= fun t => Pure.pure (follows t.kind) else Pure.pure false)
        (.accept_not (o := o) is) .pure).lookAhead
      cases nothing.symm.trans found
  exact test_of (next fun _ => inferInstance) (Walks.pure false)

instance {make : Bool → Option Node → Node → Node} :
    Walks G x y z (specifier make) (specifier make) := by
  refine step fun isTypeOnly => next fun first => step fun second => ?_
  split <;> infer_instance

instance {make : Bool → Option Node → Node → Node} :
    Walks G x y z (specifiers make) (specifiers make) := by
  unfold specifiers
  infer_instance

instance : Walks G x y z importBindings importBindings := by
  unfold importBindings
  infer_instance

instance : Walks G x y z importClause importClause := by
  unfold importClause
  infer_instance

instance : Walks G x y z importDeclaration importDeclaration := by
  unfold importDeclaration
  infer_instance

instance : Walks G x y z exportDeclaration exportDeclaration := by
  unfold exportDeclaration
  infer_instance

instance : Walks G x y z exportAssignment exportAssignment :=
  next fun _ => test_of (ask_of fun _ => inferInstance)
    (test_of inferInstance (Walks.failHere .tokenExpected ["="]))

instance : Walks G x y z namespaceExport namespaceExport := by
  unfold namespaceExport
  infer_instance

section

variable {statement statement' : Rule Nat Node} [statements : Walks G true false true statement statement']

omit statements in
theorem statementsUntil_walks {close : Kind} (h : Walks G x false x statement statement') :
    Walks G x y x (statementsUntil statement close) (statementsUntil statement' close) := by
  unfold statementsUntil
  infer_instance

/-- Statements in a block, which stands behind a brace. -/
instance {close : Kind} : Walks G true y true (statementsUntil statement close)
    (statementsUntil statement' close) := statementsUntil_walks inferInstance

instance : Walks G x y z (moduleBlock statement) (moduleBlock statement') := by
  unfold moduleBlock
  infer_instance

theorem namespaceWithin_walks (budget : Budget) (flags : UInt32) (ms : Option (List Node))
    (comment : Option String) :
    Walks G x y z (namespaceWithin statement budget flags ms comment : Rule Nat Node)
      (namespaceWithin statement' budget flags ms comment) := by
  induction budget generalizing x y z flags ms comment with
  | nil => exact failHere .identifierExpected []
  | cons first budget ih =>
    have inner : Walks G true false true
        (nested (namespaceWithin statement budget (innerFlags flags) none none : Rule Nat Node))
        (nested (namespaceWithin statement' budget (innerFlags flags) none none)) :=
      Walks.nested (h := ih _ _ _)
    exact next fun declared => inferInstance

instance {ms : Option (List Node)} :
    Walks G x y z (quotedModule statement ms) (quotedModule statement' ms) := by
  unfold quotedModule
  infer_instance

theorem isFirm_of_moduleFlags (k : Kind) (flags : UInt32) (h : moduleFlags k = some flags) :
    k.isFirm = true := by
  revert h
  fun_cases moduleFlags k <;> simp

instance : Walks G x y z (moduleDeclaration statement) (moduleDeclaration statement') := by
  refine step fun head => current_cases fun t genuine => ?_
  cases found : moduleFlags t.kind with
  | none => exact .inl inferInstance
  | some flags =>
    refine .inr ⟨genuine.firm (isFirm_of_moduleFlags _ flags found), next fun _ => ?_⟩
    have within : Walks G true false z
        (Rule.bounded fun budget => namespaceWithin statement budget flags head.2 head.1 : Rule Nat Node)
        (Rule.bounded fun budget => namespaceWithin statement' budget flags head.2 head.1) :=
      Walks.bounded (h := fun budget => namespaceWithin_walks budget _ _ _)
    infer_instance

instance : Walks G x y z (globalBlock statement) (globalBlock statement') := by
  unfold globalBlock
  infer_instance

/-- All kinds of statements, side by side. -/
theorem statementRules_walk :
    ∀ e ∈ (statementRules statement).zip (statementRules statement'), Walks G x y z e.1 e.2 := by
  simp only [statementRules, List.zip_cons_cons, List.zip_nil_right, List.forall_mem_cons,
    List.not_mem_nil, false_imp_iff, implies_true, and_true]
  refine ⟨?_, ?_, ?_, ?_, ?_, ?_, ?_, ?_, ?_, ?_, ?_, ?_⟩ <;> infer_instance

/-- What a statement is, one level deeper. -/
theorem statement_walks {m : Message} :
    Walks G x y z (nested (alternatives (statementRules statement) m))
      (nested (alternatives (statementRules statement') m)) :=
  Walks.nested (h := Walks.alternatives _ statementRules_walk)

end

theorem statementWithin_walks (budget : Budget) :
    Walks G x y z (statementWithin budget : Rule Nat Node) (statementWithin budget) := by
  induction budget generalizing x y z with
  | nil => exact failHere .statementExpected []
  | cons first budget ih =>
    have : Walks G true false true (statementWithin budget : Rule Nat Node) (statementWithin budget) := ih
    exact statement_walks

instance : Walks G x y z statement statement := Walks.bounded (h := statementWithin_walks)

theorem sourceFile_walks : Walks G x y x sourceFile sourceFile := by
  have statements : Walks G x y x (statementsUntil statement .endOfFileToken)
      (statementsUntil statement .endOfFileToken) := statementsUntil_walks inferInstance
  unfold sourceFile
  infer_instance

theorem entire_walks {r r' : Rule Nat Node} (h : Walks G x y true r r') :
    Walks G x y z (entire r) (entire r') := by
  unfold entire
  infer_instance

end Ambient.Grammar

namespace Ambient

open Rule Grammar

theorem Entry.walks {G : Ground} [G.Lawful] (entry : Entry) :
    Walks G false false false entry.rule entry.rule := by
  cases entry with
  | file => exact sourceFile_walks
  | type | typeMember | classMember | statement => exact entire_walks inferInstance

end Ambient

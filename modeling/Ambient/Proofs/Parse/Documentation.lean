import Ambient.Proofs.Grammar.Unambiguous
import Ambient.Proofs.Pairing.Entry
import Ambient.Proofs.Parse.Reads
import Ambient.Tree.Declaration

namespace Ambient

open Rule

namespace Node

def isIdentifier : Node → Bool
  | .identifier .. => true
  | _ => false

def isConstructor : Node → Bool
  | .constructorDeclaration .. => true
  | _ => false

/-- Whether a statement or a member has a name that holds its documentation. -/
def takesDocumentation : Node → Bool
  | .variableStatement .. | .functionDeclaration .. | .classDeclaration ..
  | .interfaceDeclaration .. | .typeAliasDeclaration .. | .enumDeclaration .. => true
  | .moduleDeclaration flags _ name _ => name.isIdentifier && flags ≠ Flags.globalBit
  | .propertySignature _ name _ _ | .methodSignature name _ _ _ _
  | .propertyDeclaration _ name _ _ | .methodDeclaration _ name _ _ _ _ => name.isIdentifier
  | _ => false

/-- A statement or a member is documented by `comment` if it can be, and else not at all. -/
structure DocumentedBy (comment : Option String) (n : Node) : Prop where
  declared : n.declaredComment? = if n.takesDocumentation then comment else none
  own : n.ownComment? = if n.isConstructor then comment else none

end Node

/-- The documentation in front of the current token. -/
def Stream.leadingDocumentation (o : Options) (s : Stream) : Option String :=
  if o.keepsComments then s.current.comment.bind fun c => documentation c.text else none

namespace Rule

variable {α β : Type}

/-- Whatever a rule gives satisfies `P`. -/
def Promises (r : Rule Nat α) (P : α → Prop) : Prop := ∀ ⦃o s a t⦄, r.Gives o s a t → P a

namespace Promises

variable {r : Rule Nat α} {f : α → Rule Nat β} {P : β → Prop} {Q : α → Prop}

theorem pure {a : α} (h : Q a) : (pure a : Rule Nat α).Promises Q := by
  intro o s b t gives
  cases gives
  exact h

theorem bind (first : r.Promises Q) (rest : ∀ a, Q a → (f a).Promises P) : (r >>= f).Promises P := by
  intro o s b t gives
  obtain ⟨a, u, here, gives⟩ := gives.of_bind
  exact rest a (first here) gives

theorem behind (rest : ∀ a, (f a).Promises P) : (r >>= f).Promises P := by
  intro o s b t gives
  obtain ⟨a, u, -, gives⟩ := gives.of_bind
  exact rest a gives

theorem ite {c : Prop} [Decidable c] {r r' : Rule Nat α} (h : r.Promises Q) (g : r'.Promises Q) :
    (if c then r else r').Promises Q := by
  split
  · exact h
  · exact g

theorem failHere {m : Message} {arguments : List String} :
    (failHere m arguments : Rule Nat α).Promises Q := by
  intro o s a t gives
  cases gives

end Promises

/-- A rule takes documentation from the comment in front of its first token. -/
def Documents (r : Rule Nat Node) : Prop :=
  ∀ ⦃o s n t⦄, r.Gives o s n t → n.DocumentedBy (s.stream.leadingDocumentation o)

namespace Documents

theorem of_here {f : Option String → Rule Nat Node}
    (h : ∀ comment, (f comment).Promises (Node.DocumentedBy comment)) :
    (documentationHere >>= f).Documents := by
  intro o s n t gives
  obtain ⟨comment, u, here, gives⟩ := gives.of_bind
  cases here
  exact h _ gives

theorem of_promises {r : Rule Nat Node} (h : r.Promises fun n => ∀ comment, n.DocumentedBy comment) :
    r.Documents := by
  intro o s n t gives
  exact h gives _

theorem nested {r : Rule Nat Node} [Balanced r] (h : r.Documents) : (nested r).Documents := by
  intro o s n t gives
  obtain ⟨-, u, inner, -⟩ := gives.of_nested
  have documented := h inner
  exact documented

theorem bounded {r : Budget → Rule Nat Node} (h : ∀ budget, (r budget).Documents) :
    (bounded r).Documents := by
  intro o s n t gives
  exact h s.stream.toList gives

theorem alternatives {rules : List (Rule Nat Node)} {fallback : Message}
    (balanced : ∀ r ∈ rules, Balanced r) (each : ∀ r ∈ rules, r.Documents) :
    (alternatives rules fallback).Documents := by
  intro o s n t gives
  obtain ⟨r, mem, gives⟩ := gives.of_alternatives balanced
  exact each r mem gives

end Documents

end Rule

namespace Grammar

theorem identifierOf_promises (allowed : Kind → Bool) (comment : Option String) :
    (identifierOf allowed comment).Promises fun n => ∃ text, n = .identifier text comment := by
  refine .behind fun t => .ite ?_ .failHere
  exact .behind fun _ => .pure ⟨_, rfl⟩

theorem stringLiteral_promises : stringLiteral.Promises fun n => ∃ text, n = .stringLiteral text := by
  refine .behind fun t => .ite ?_ .failHere
  exact .behind fun _ => .pure ⟨_, rfl⟩

theorem literal?_promises : literal?.Promises fun found =>
    ∀ n, found = some n → n.isIdentifier = false ∧ n.ownComment? = none := by
  refine .behind fun t => .ite (.pure (by simp)) (.ite ?_ (.ite ?_ (.pure (by simp))))
  · refine .behind fun _ => .pure ?_
    intro n eq
    cases eq
    exact ⟨rfl, rfl⟩
  · refine .behind fun _ => .pure ?_
    intro n eq
    cases eq
    exact ⟨rfl, rfl⟩

/-- The name of a member holds documentation if it is an identifier. -/
theorem propertyName_promises (comment : Option String) : (propertyName comment).Promises fun n =>
    n.ownComment? = if n.isIdentifier then comment else none := by
  refine .behind fun t => .ite ?_ ?_
  · intro o s n u gives
    obtain ⟨text, rfl⟩ := identifierOf_promises _ _ gives
    rfl
  · refine .bind literal?_promises fun found literal => ?_
    cases found with
    | none => exact .failHere
    | some n =>
      obtain ⟨no_identifier, no_comment⟩ := literal n rfl
      refine .pure ?_
      rw [no_identifier, no_comment]
      rfl

theorem documents_of_head {allowed : List Kind}
    {f : Option String × Option (List Node) → Rule Nat Node}
    (h : ∀ comment modifiers, (f (comment, modifiers)).Promises (Node.DocumentedBy comment)) :
    (declarationHead allowed >>= f).Documents := by
  intro o s n t gives
  obtain ⟨head, u, read, gives⟩ := gives.of_bind
  obtain ⟨comment, v, here, read⟩ := read.of_bind
  cases here
  obtain ⟨modifiers, w, -, last⟩ := read.of_bind
  cases last
  exact h _ modifiers gives

/-- What is declared under a name, which takes the documentation, is documented whatever stands
behind the name. -/
theorem named_promises {keyword : Rule Nat Unit} {comment : Option String} {f : Node → Rule Nat Node}
    (h : ∀ text, (f (.identifier text comment)).Promises (Node.DocumentedBy comment)) :
    (keyword >>= fun _ => name comment >>= f).Promises (Node.DocumentedBy comment) := by
  refine .behind fun _ => .bind (identifierOf_promises Kind.isName comment) ?_
  rintro n ⟨text, rfl⟩
  exact h text

theorem interfaceDeclaration_documents : interfaceDeclaration.Documents := by
  refine documents_of_head fun comment modifiers => named_promises fun text => ?_
  refine .behind fun typeParameters => .behind fun heritage => .behind fun members => .pure ?_
  exact ⟨rfl, rfl⟩

theorem classDeclaration_documents : classDeclaration.Documents := by
  refine documents_of_head fun comment modifiers => named_promises fun text => ?_
  refine .behind fun typeParameters => .behind fun heritage => .behind fun members => .pure ?_
  exact ⟨rfl, rfl⟩

theorem typeAlias_documents : typeAlias.Documents := by
  refine documents_of_head fun comment modifiers => named_promises fun text => ?_
  refine .behind fun typeParameters => .behind fun _ => .behind fun value => .behind fun _ => .pure ?_
  exact ⟨rfl, rfl⟩

theorem enumDeclaration_documents : enumDeclaration.Documents := by
  refine documents_of_head fun comment modifiers => named_promises fun text => ?_
  refine .behind fun _ => .behind fun members => .behind fun _ => .pure ?_
  exact ⟨rfl, rfl⟩

theorem functionDeclaration_documents : functionDeclaration.Documents := by
  refine documents_of_head fun comment modifiers => named_promises fun text => ?_
  refine .behind fun typeParameters => .behind fun parameters => .behind fun result =>
    .behind fun _ => .pure ?_
  exact ⟨rfl, rfl⟩

/-- Of several variables the first one takes the documentation. -/
theorem variableList_promises (comment : Option String) : (variableList comment).Promises fun l =>
    ∃ text type others, l = .variableDeclaration (.identifier text comment) type :: others := by
  have first : (variableDeclaration comment).Promises fun n =>
      ∃ text type, n = .variableDeclaration (.identifier text comment) type := by
    refine .bind (identifierOf_promises Kind.isName comment) ?_
    rintro n ⟨text, rfl⟩
    exact .behind fun _ => .behind fun type => .pure ⟨text, type, rfl⟩
  refine .bind first ?_
  rintro n ⟨text, type, rfl⟩
  exact .behind fun others => .pure ⟨text, type, others, rfl⟩

theorem variableStatement_documents : variableStatement.Documents := by
  refine documents_of_head fun comment modifiers => .behind fun t => ?_
  cases variableFlags t.kind with
  | none => exact .failHere
  | some flags =>
    refine .behind fun _ => .bind (variableList_promises comment) ?_
    rintro l ⟨text, type, others, rfl⟩
    exact .behind fun _ => .pure ⟨rfl, rfl⟩

section

variable (statement : Rule Nat Node)

/-- In front of a dotted name stands the documentation of the outermost namespace. -/
theorem namespaceWithin_promises (budget : Budget) (flags : UInt32) (modifiers : Option (List Node))
    (comment : Option String) (no_global : flags ≠ Flags.globalBit) :
    Promises (namespaceWithin statement budget flags modifiers comment)
      (Node.DocumentedBy comment) := by
  have documented (text : String) (body : Option Node) : Node.DocumentedBy comment
      (.moduleDeclaration flags modifiers (.identifier text comment) body) := by
    refine ⟨?_, rfl⟩
    simp [Node.declaredComment?, Node.nameNode?, Node.ownComment?, Node.takesDocumentation,
      Node.isIdentifier, no_global]
  cases budget with
  | nil => exact .failHere
  | cons _ budget =>
    refine .bind (identifierOf_promises Kind.isName comment) ?_
    rintro n ⟨text, rfl⟩
    refine .behind fun dotted => .ite ?_ ?_
    · exact .behind fun inner => .pure (documented text inner)
    · exact .behind fun body => .pure (documented text body)

theorem moduleFlags_ne_global {k : Kind} {flags : UInt32} (h : moduleFlags k = some flags) :
    flags ≠ Flags.globalBit := by
  unfold moduleFlags at h
  split at h <;> cases h <;> decide

theorem quotedModule_promises (modifiers : Option (List Node)) (comment : Option String) :
    (quotedModule statement modifiers).Promises (Node.DocumentedBy comment) := by
  refine .bind stringLiteral_promises ?_
  rintro n ⟨text, rfl⟩
  refine .behind fun opens => .ite ?_ ?_
  · exact .behind fun body => .pure ⟨rfl, rfl⟩
  · exact .behind fun _ => .pure ⟨rfl, rfl⟩

theorem moduleDeclaration_documents : (moduleDeclaration statement).Documents := by
  refine documents_of_head fun comment modifiers => .behind fun t => ?_
  cases eq : moduleFlags t.kind with
  | none => exact .failHere
  | some flags =>
    refine .behind fun _ => .behind fun quoted => .ite (quotedModule_promises statement _ _) ?_
    intro o s n t gives
    exact namespaceWithin_promises statement _ flags _ _ (moduleFlags_ne_global eq) gives

theorem globalBlock_documents : (globalBlock statement).Documents := by
  refine .of_promises (.behind fun modifiers => .behind fun _ => .behind fun body => .pure ?_)
  intro comment
  exact ⟨rfl, rfl⟩

end

theorem namespaceExport_documents : namespaceExport.Documents := by
  refine .of_promises (.behind fun _ => .behind fun _ => .behind fun _ =>
    .bind (identifierOf_promises Kind.isName none) ?_)
  rintro n ⟨text, rfl⟩
  refine .behind fun _ => .pure ?_
  intro comment
  exact ⟨rfl, rfl⟩

theorem importDeclaration_documents : importDeclaration.Documents := by
  refine .of_promises (.behind fun _ => .behind fun bare => .ite ?_ ?_)
  · exact .behind fun module => .behind fun _ => .pure fun comment => ⟨rfl, rfl⟩
  · exact .behind fun clause => .behind fun _ => .behind fun module => .behind fun _ =>
      .pure fun comment => ⟨rfl, rfl⟩

theorem exportDeclaration_documents : exportDeclaration.Documents := by
  refine .of_promises (.behind fun _ => .behind fun typeOnly => .behind fun all => .ite ?_ ?_)
  · exact .behind fun _ => .behind fun module => .behind fun _ => .pure fun comment => ⟨rfl, rfl⟩
  · exact .behind fun elements => .behind fun module => .behind fun _ =>
      .pure fun comment => ⟨rfl, rfl⟩

theorem exportAssignment_documents : exportAssignment.Documents := by
  refine .of_promises (.behind fun _ => .behind fun equals => .behind fun default =>
    .ite ?_ .failHere)
  exact .behind fun _ => .behind fun expression => .behind fun _ =>
    .pure fun comment => ⟨rfl, rfl⟩

theorem statementRules_document (statement : Rule Nat Node) :
    ∀ r ∈ statementRules statement, r.Documents := by
  simp only [statementRules, List.forall_mem_cons, List.not_mem_nil, false_imp_iff, implies_true,
    and_true]
  exact ⟨importDeclaration_documents, namespaceExport_documents, exportDeclaration_documents,
    interfaceDeclaration_documents, classDeclaration_documents, functionDeclaration_documents,
    typeAlias_documents, enumDeclaration_documents, variableStatement_documents,
    moduleDeclaration_documents statement, globalBlock_documents statement,
    exportAssignment_documents⟩

theorem statementWithin_documents (budget : Budget) : Documents (statementWithin budget) := by
  cases budget with
  | nil =>
    intro o s n t gives
    cases gives
  | cons _ budget =>
    have rules := statementRules_document (statementWithin budget)
    exact .nested (.alternatives (balanced_statementRules _) rules)

theorem statement_documents : Documents statement :=
  Documents.bounded statementWithin_documents

theorem documentedBy_of_name {n declared : Node} {comment : Option String}
    (named : n.nameNode? = some declared) (takes : n.takesDocumentation = declared.isIdentifier)
    (own : n.ownComment? = if n.isConstructor then comment else none)
    (h : declared.ownComment? = if declared.isIdentifier then comment else none) :
    n.DocumentedBy comment := by
  refine ⟨?_, own⟩
  rw [Node.declaredComment?, named, takes]
  exact h

section

variable (type : Rule Nat Node)

theorem propertySignature_documents : (propertySignature type).Documents := by
  refine .of_here fun comment => .behind fun modifiers => .bind (propertyName_promises comment) ?_
  intro declared documented
  refine .behind fun question => .behind fun _ => .behind fun value => .behind fun _ => .pure ?_
  exact documentedBy_of_name rfl rfl rfl documented

theorem methodSignature_documents : (methodSignature type).Documents := by
  refine .of_here fun comment => .bind (propertyName_promises comment) ?_
  intro declared documented
  refine .behind fun question => .behind fun typeParameters => .behind fun parameters =>
    .behind fun result => .behind fun _ => .pure ?_
  exact documentedBy_of_name rfl rfl rfl documented

theorem callSignature_documents : (callSignature type).Documents := by
  refine .of_promises (.behind fun typeParameters => .behind fun parameters => .behind fun result =>
    .behind fun _ => .pure ?_)
  exact fun comment => ⟨rfl, rfl⟩

theorem constructSignature_documents : (constructSignature type).Documents := by
  refine .of_promises (.behind fun _ => .behind fun typeParameters => .behind fun parameters =>
    .behind fun result => .behind fun _ => .pure ?_)
  exact fun comment => ⟨rfl, rfl⟩

theorem indexSignature_promises (modifiers : Option (List Node)) :
    (indexSignature type modifiers).Promises fun n => ∀ comment, n.DocumentedBy comment := by
  refine .behind fun _ => .behind fun key => .behind fun keyType => .behind fun _ =>
    .behind fun value => .pure ?_
  exact fun comment => ⟨rfl, rfl⟩

theorem indexMember_documents : (indexMember type).Documents := by
  refine .of_promises (.behind fun modifiers => .bind (indexSignature_promises type modifiers) ?_)
  intro n undocumented
  exact .behind fun _ => .pure undocumented

theorem typeMember_documents [Balanced type] : (typeMember type).Documents := by
  intro o s n t gives
  obtain ⟨x, u, refused, gives⟩ := gives.of_bind
  have stays : s.stream = u.stream := refuseModifier_leads (leads_of_gives refused)
  rw [stays]
  refine Documents.alternatives (balanced_typeMemberRules type) ?_ gives
  simp only [List.forall_mem_cons, List.not_mem_nil, false_imp_iff, implies_true, and_true]
  exact ⟨indexMember_documents type, callSignature_documents type,
    constructSignature_documents type, propertySignature_documents type,
    methodSignature_documents type⟩

theorem constructorMember_documents : (constructorMember type).Documents := by
  refine .of_here fun comment => .behind fun modifiers => .behind fun _ => .behind fun parameters =>
    .behind fun _ => .pure ?_
  exact ⟨rfl, rfl⟩

theorem classIndexMember_documents : (classIndexMember type).Documents := by
  refine .of_promises (.behind fun modifiers => .bind (indexSignature_promises type modifiers) ?_)
  intro n undocumented
  exact .behind fun _ => .pure undocumented

theorem propertyMember_documents : (propertyMember type).Documents := by
  refine .of_here fun comment => .behind fun modifiers => .bind (propertyName_promises comment) ?_
  intro declared documented
  have property (modifiers : Option (List Node)) (question : Option Node) (value : Node) :
      (Node.propertyDeclaration modifiers declared question value).DocumentedBy comment :=
    documentedBy_of_name rfl rfl rfl documented
  refine .behind fun question => .ite ?_ ?_
  · exact .behind fun _ => .behind fun _ => .behind fun value => .behind fun _ => .pure (property ..)
  · exact .behind fun _ => .behind fun value => .behind fun _ => .pure (property ..)

theorem methodMember_documents : (methodMember type).Documents := by
  refine .of_here fun comment => .behind fun modifiers => .bind (propertyName_promises comment) ?_
  intro declared documented
  refine .behind fun question => .behind fun typeParameters => .behind fun parameters =>
    .behind fun result => .behind fun _ => .pure ?_
  exact documentedBy_of_name rfl rfl rfl documented

theorem classMember_documents [Balanced type] : (classMember type).Documents := by
  refine .alternatives (balanced_classMemberRules type) ?_
  simp only [List.forall_mem_cons, List.not_mem_nil, false_imp_iff, implies_true, and_true]
  exact ⟨constructorMember_documents type, classIndexMember_documents type,
    propertyMember_documents type, methodMember_documents type⟩

end

theorem entire_documents {r : Rule Nat Node} (h : r.Documents) : (entire r).Documents := by
  intro o s n t gives
  obtain ⟨m, u, read, gives⟩ := gives.of_bind
  obtain ⟨last, v, -, gives⟩ := gives.of_bind
  cases last with
  | false => cases gives
  | true =>
    cases gives
    exact h read

end Grammar

/-- A comment in front of a statement or a member documents what is declared there: the name of a
declaration or a member if it is an identifier, and a constructor. Blocks that add to the global scope,
exports as a namespace and all else have no documentation. -/
theorem documented_of_parse (entry : Entry) (options : Options) (text : String) (n : Node)
    (single : entry ∈ [.statement, .typeMember, .classMember])
    (h : parse entry options text = .ok n) :
    n.DocumentedBy ((Stream.ofText text).leadingDocumentation options) := by
  obtain ⟨t, gives⟩ := gives_of_parse h
  have documents : entry.rule.Documents := by
    simp only [List.mem_cons, List.not_mem_nil, or_false] at single
    rcases single with rfl | rfl | rfl
    · exact Grammar.entire_documents Grammar.statement_documents
    · exact Grammar.entire_documents (Grammar.typeMember_documents Grammar.type)
    · exact Grammar.entire_documents (Grammar.classMember_documents Grammar.type)
  exact documents gives

/-- In front of the modifiers of the first of two variables. -/
theorem documented_of_parse_twoVariables :
    let text := "/** Size. */ export declare const a: A, b: B;"
    ∃ n, parse .statement {} text = .ok n ∧ n.declaredComment? = some "Size." := by
  intro text
  have parses : (parse .statement {} text).toOption.any Node.takesDocumentation = true := by
    decide +kernel
  obtain ⟨n, parsed, takes⟩ := exists_of_any parses
  refine ⟨n, parsed, ?_⟩
  rw [(documented_of_parse .statement {} text n (by decide) parsed).declared, takes]
  decide +kernel

/-- A comment in front of an export as a namespace is lost, and so is one in front of a block that
adds to the global scope. -/
theorem not_documented_namespaceExport :
    (∃ n, parse .statement {} "/** Docs. */ export as namespace N;" = .ok n ∧
      n.declaredName? = some "N" ∧ n.declaredComment? ≠ some "Docs.") ∧
    (∃ n, parse .statement {} "/** Docs. */ declare global \x7b \x7d" = .ok n ∧
      n.declaredName? = some "global" ∧ n.declaredComment? ≠ some "Docs.") ∧
    documentation "/** Docs. */" = some "Docs." := by
  have both (text word : String) (loses : (parse .statement {} text).toOption.any (fun n =>
      n.declaredName? = some word ∧ n.declaredComment? ≠ some "Docs.") = true) :
      ∃ n, parse .statement {} text = .ok n ∧ n.declaredName? = some word ∧
        n.declaredComment? ≠ some "Docs." := by
    obtain ⟨n, parsed, lost⟩ := exists_of_any loses
    exact ⟨n, parsed, of_decide_eq_true lost⟩
  refine ⟨both _ _ ?_, both _ _ ?_, ?_⟩
  · decide +kernel
  · decide +kernel
  · decide +kernel

end Ambient

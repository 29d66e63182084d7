import Mathlib.Tactic.Common
import Ambient.Interchange.Encode

namespace Ambient

/-- A part of a node. -/
inductive Part where
  | text (key : String) (value : String)
  | text? (key : String) (value : Option String)
  | flag (key : String) (value : Bool)
  | bits (key : String) (value : UInt32)
  | operator (key : String) (value : Kind)
  | node (key : String) (place : Target) (value : Node)
  | node? (key : String) (place : Target) (value : Option Node)
  | list (key : String) (place : Target) (values : List Node)
  | list? (key : String) (place : Target) (values : Option (List Node))
  | modifiers (values : Option (List Node))

namespace Part

def key : Part → String
  | .text key _ | .text? key _ | .flag key _ | .bits key _ | .operator key _ | .node key _ _
  | .node? key _ _ | .list key _ _ | .list? key _ _ => key
  | .modifiers _ => "Modifiers"

/-- The nodes of a part, each with what may stand in its place. -/
def places : Part → List (Target × Node)
  | .node _ place value => [(place, value)]
  | .node? _ place value => value.toList.map (place, ·)
  | .list _ place values => values.map (place, ·)
  | .list? _ place values => (values.getD []).map (place, ·)
  | .modifiers values => (values.getD []).map (.shape .token, ·)
  | .text _ _ | .text? _ _ | .flag _ _ | .bits _ _ | .operator _ _ => []

/-- A bound on the size of the nodes of a part. -/
noncomputable def size : Part → Nat
  | .node _ _ value => sizeOf value + 1
  | .node? _ _ value => sizeOf value
  | .list _ _ values => sizeOf values
  | .list? _ _ values | .modifiers values => sizeOf values
  | .text _ _ | .text? _ _ | .flag _ _ | .bits _ _ | .operator _ _ => 0

/-- The part as a member of the interchange form. -/
def encoded : Part → Member.Encoded
  | .text key value => Member.text key value
  | .text? key value => Member.text? key value
  | .flag key value => Member.flag key value
  | .bits key value => Member.bits key value
  | .operator key value => Member.code key value
  | .node key _ value => Member.node key value.encode
  | .node? key _ value => Member.node? key (Node.encode? value)
  | .list key _ values => Member.list key (Node.encodeList values)
  | .list? key _ values => Member.list? key (Node.encodeList? values)
  | .modifiers values => Member.list? "Modifiers" (Node.encodeList? values)

abbrev name (value : Node) : Part := .node "Name" (.shape .identifier) value

abbrev memberName (value : Node) : Part := .node "Name" (.category .propertyName) value

abbrev type (value : Node) : Part := .node "Type" (.category .type) value

abbrev token (key : String) (value : Option Node) : Part := .node? key (.shape .token) value

abbrev typeParameters (values : Option (List Node)) : Part :=
  .list? "TypeParameters" (.shape .typeParameter) values

abbrev parameters (values : Option (List Node)) : Part :=
  .list? "Parameters" (.shape .parameter) values

abbrev typeArguments (values : Option (List Node)) : Part :=
  .list? "TypeArguments" (.category .type) values

abbrev heritage (values : Option (List Node)) : Part :=
  .list? "HeritageClauses" (.shape .heritageClause) values

theorem sizeOf_place {p : Part} {c : Target × Node} (h : c ∈ p.places) : sizeOf c.2 < p.size := by
  cases p with
  | node key place value =>
    rw [places, List.mem_singleton] at h
    simp [h, size]
  | node? key place value =>
    obtain ⟨m, hm, rfl⟩ := List.mem_map.mp h
    rw [Option.mem_toList] at hm
    simp [Option.mem_def.mp hm, size]
  | list key place values =>
    obtain ⟨m, hm, rfl⟩ := List.mem_map.mp h
    exact List.sizeOf_lt_of_mem hm
  | list? key place values | modifiers values =>
    obtain ⟨m, hm, rfl⟩ := List.mem_map.mp h
    cases values with
    | none => simp at hm
    | some values =>
      have smaller := List.sizeOf_lt_of_mem hm
      simp only [Option.getD_some, size, Option.some.sizeOf_spec] at *
      omega
  | _ => simp [places] at h

end Part

namespace Node

/-- The parts of a node behind its kind, in order. -/
def parts : Node → List Part
  | .token _ | .keywordType _ | .thisType => []
  | .identifier text comment => [.text "Text" text, .text? "Comment" comment]
  | .qualifiedName left right =>
    [.node "Left" (.category .entityName) left, .node "Right" (.shape .identifier) right]
  | .stringLiteral text | .numericLiteral text => [.text "Text" text]
  | .typeReference name arguments =>
    [.node "TypeName" (.category .entityName) name, .typeArguments arguments]
  | .typePredicate asserts subject type =>
    [.token "AssertsModifier" asserts, .node "ParameterName" (.category .predicateSubject) subject,
      .node? "Type" (.category .type) type]
  | .functionType typeParameters parameters result =>
    [.typeParameters typeParameters, .parameters parameters, .type result]
  | .constructorType modifiers typeParameters parameters result =>
    [.modifiers modifiers, .typeParameters typeParameters, .parameters parameters, .type result]
  | .typeQuery name arguments =>
    [.node "ExprName" (.category .entityName) name, .typeArguments arguments]
  | .typeLiteral members => [.list "Members" (.category .typeMember) members]
  | .arrayType element => [.node "ElementType" (.category .type) element]
  | .tupleType elements => [.list "Elements" (.category .type) elements]
  | .optionalType type | .restType type | .parenthesizedType type => [.type type]
  | .namedTupleMember dots name question type =>
    [.token "DotDotDotToken" dots, .name name, .token "QuestionToken" question, .type type]
  | .unionType types | .intersectionType types => [.list "Types" (.category .type) types]
  | .typeOperator operator type => [.operator "Operator" operator, .type type]
  | .indexedAccessType object index =>
    [.node "ObjectType" (.category .type) object, .node "IndexType" (.category .type) index]
  | .mappedType readonlyToken bound nameType question type =>
    [.token "ReadonlyToken" readonlyToken, .node "TypeParameter" (.shape .typeParameter) bound,
      .node? "NameType" (.category .type) nameType, .token "QuestionToken" question,
      .node? "Type" (.category .type) type]
  | .literalType literal => [.node "Literal" (.category .literal) literal]
  | .typeParameter name constraint defaultType =>
    [.name name, .node? "Constraint" (.category .type) constraint,
      .node? "Default" (.category .type) defaultType]
  | .parameter modifiers dots name question type =>
    [.modifiers modifiers, .token "DotDotDotToken" dots, .name name,
      .token "QuestionToken" question, .type type]
  | .heritageClause types => [.list "Types" (.shape .expressionWithTypeArguments) types]
  | .expressionWithTypeArguments expression arguments =>
    [.node "Expression" (.category .entityName) expression, .typeArguments arguments]
  | .propertySignature modifiers name question type
  | .propertyDeclaration modifiers name question type =>
    [.modifiers modifiers, .memberName name, .token "QuestionToken" question, .type type]
  | .methodSignature name question typeParameters parameters result =>
    [.memberName name, .token "QuestionToken" question, .typeParameters typeParameters,
      .parameters parameters, .type result]
  | .callSignature typeParameters parameters result
  | .constructSignature typeParameters parameters result =>
    [.typeParameters typeParameters, .parameters parameters, .type result]
  | .indexSignature modifiers parameters type =>
    [.modifiers modifiers, .list "Parameters" (.shape .parameter) parameters, .type type]
  | .methodDeclaration modifiers name question typeParameters parameters result =>
    [.modifiers modifiers, .memberName name, .token "QuestionToken" question,
      .typeParameters typeParameters, .parameters parameters, .type result]
  | .constructorDeclaration comment modifiers parameters =>
    [.text? "Comment" comment, .modifiers modifiers, .parameters parameters]
  | .interfaceDeclaration modifiers name typeParameters heritage members =>
    [.modifiers modifiers, .name name, .typeParameters typeParameters, .heritage heritage,
      .list "Members" (.category .typeMember) members]
  | .classDeclaration modifiers name typeParameters heritage members =>
    [.modifiers modifiers, .name name, .typeParameters typeParameters, .heritage heritage,
      .list "Members" (.category .classMember) members]
  | .enumDeclaration modifiers name members =>
    [.modifiers modifiers, .name name, .list "Members" (.shape .enumMember) members]
  | .enumMember name initializer =>
    [.memberName name, .node? "Initializer" (.category .literal) initializer]
  | .functionDeclaration modifiers name typeParameters parameters result =>
    [.modifiers modifiers, .name name, .typeParameters typeParameters, .parameters parameters,
      .type result]
  | .typeAliasDeclaration modifiers name typeParameters type =>
    [.modifiers modifiers, .name name, .typeParameters typeParameters, .type type]
  | .variableStatement modifiers declarationList =>
    [.modifiers modifiers,
      .node "DeclarationList" (.shape .variableDeclarationList) declarationList]
  | .variableDeclarationList flags declarations =>
    [.bits "Flags" flags, .list "Declarations" (.shape .variableDeclaration) declarations]
  | .variableDeclaration name type => [.name name, .type type]
  | .moduleDeclaration flags modifiers name body =>
    [.bits "Flags" flags, .modifiers modifiers, .node "Name" (.category .moduleName) name,
      .node? "Body" (.category .moduleBody) body]
  | .moduleBlock statements | .sourceFile statements =>
    [.list "Statements" (.category .statement) statements]
  | .importDeclaration clause specifier =>
    [.node? "ImportClause" (.shape .importClause) clause,
      .node "ModuleSpecifier" (.shape .stringLiteral) specifier]
  | .importClause isTypeOnly name bindings =>
    [.flag "IsTypeOnly" isTypeOnly, .node? "Name" (.shape .identifier) name,
      .node? "NamedBindings" (.category .importBindings) bindings]
  | .namespaceImport name | .namespaceExportDeclaration name => [.name name]
  | .namedImports elements => [.list "Elements" (.shape .importSpecifier) elements]
  | .namedExports elements => [.list "Elements" (.shape .exportSpecifier) elements]
  | .importSpecifier isTypeOnly propertyName name
  | .exportSpecifier isTypeOnly propertyName name =>
    [.flag "IsTypeOnly" isTypeOnly, .node? "PropertyName" (.shape .identifier) propertyName,
      .name name]
  | .exportDeclaration isTypeOnly clause specifier =>
    [.flag "IsTypeOnly" isTypeOnly, .node? "ExportClause" (.shape .namedExports) clause,
      .node? "ModuleSpecifier" (.shape .stringLiteral) specifier]
  | .exportAssignment isExportEquals expression =>
    [.flag "IsExportEquals" isExportEquals, .node "Expression" (.category .entityName) expression]

-- so the equations are there for all modules that unfold the definition
attribute [local simp] parts

/-- The nodes right below a node, in order, each with what may stand in its place. -/
def children (n : Node) : List (Target × Node) := n.parts.flatMap Part.places

/-- The interchange form of a node lists its parts behind its kind. -/
theorem encode_eq (n : Node) : n.encode = encodeObject n.kind (n.parts.map Part.encoded) := by
  cases n <;> rfl

theorem encodeList_eq (ns : List Node) : encodeList ns = ns.map encode := by
  induction ns with
  | nil => rfl
  | cons n ns ih => exact congrArg (n.encode :: ·) ih

theorem size_part {n : Node} {p : Part} (h : p ∈ n.parts) : p.size ≤ sizeOf n := by
  revert p
  cases n <;> simp only [parts, List.forall_mem_cons, List.not_mem_nil, false_imp_iff,
    implies_true, and_true, Part.size] <;> simp <;> omega

/-- A node is smaller than the node above it. -/
theorem sizeOf_child {n : Node} {c : Target × Node} (h : c ∈ n.children) :
    sizeOf c.2 < sizeOf n := by
  obtain ⟨p, hp, hc⟩ := List.mem_flatMap.mp h
  exact Nat.lt_of_lt_of_le (Part.sizeOf_place hc) (size_part hp)

end Node

end Ambient

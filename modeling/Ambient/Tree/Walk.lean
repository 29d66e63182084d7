import Ambient.Tree.Node

namespace Ambient

/-- What a node is to its parent. -/
inductive Place where
  | statement | type | typeMember | classMember | enumMember | typeParameter | parameter
  | entityName | propertyName | identifier
  /-- Anything else. -/
  | part
deriving DecidableEq

/-- A visitor says what to do at a node, given its place. Where it says nothing, the walk goes on
below the node. -/
abbrev Visitor (σ : Type) := Place → Node → Option (σ → σ)

namespace Node

variable {σ : Type}

mutual

/-- Walks through a node, depth first and from left to right. An identifier is also visited as such
if it stands in place of another name. Of a renamed import or export only the new name is visited. -/
def walk (visit : Visitor σ) (place : Place) (n : Node) (s : σ) : σ :=
  match visit place n with
  | some act => act s
  | none =>
    match n with
    | .identifier text comment =>
      match visit .identifier (.identifier text comment) with
      | some act => act s
      | none => s
    | .qualifiedName left right => walk visit .identifier right (walk visit .entityName left s)
    | .typeReference name arguments =>
      walkList? visit .type arguments (walk visit .entityName name s)
    | .typePredicate _ subject type => walk? visit .type type (walk visit .part subject s)
    | .functionType typeParameters parameters result =>
      walk visit .type result (walkList? visit .parameter parameters
        (walkList? visit .typeParameter typeParameters s))
    | .constructorType _ typeParameters parameters result =>
      walk visit .type result (walkList? visit .parameter parameters
        (walkList? visit .typeParameter typeParameters s))
    | .typeQuery name arguments =>
      walkList? visit .type arguments (walk visit .entityName name s)
    | .typeLiteral members => walkList visit .typeMember members s
    | .arrayType element => walk visit .type element s
    | .tupleType elements => walkList visit .type elements s
    | .optionalType type => walk visit .type type s
    | .restType type => walk visit .type type s
    | .namedTupleMember _ name _ type => walk visit .type type (walk visit .identifier name s)
    | .unionType types => walkList visit .type types s
    | .intersectionType types => walkList visit .type types s
    | .parenthesizedType type => walk visit .type type s
    | .typeOperator _ type => walk visit .type type s
    | .indexedAccessType object index => walk visit .type index (walk visit .type object s)
    | .mappedType _ bound nameType _ type =>
      walk? visit .type type (walk? visit .type nameType
        (walk visit .typeParameter bound s))
    | .typeParameter name constraint defaultType =>
      walk? visit .type defaultType (walk? visit .type constraint (walk visit .identifier name s))
    | .parameter _ _ name _ type => walk visit .type type (walk visit .identifier name s)
    | .heritageClause types => walkList visit .part types s
    | .expressionWithTypeArguments expression arguments =>
      walkList? visit .type arguments (walk visit .entityName expression s)
    | .propertySignature _ name _ type => walk visit .type type (walk visit .propertyName name s)
    | .methodSignature name _ typeParameters parameters result =>
      walk visit .type result (walkList? visit .parameter parameters
        (walkList? visit .typeParameter typeParameters (walk visit .propertyName name s)))
    | .callSignature typeParameters parameters result =>
      walk visit .type result (walkList? visit .parameter parameters
        (walkList? visit .typeParameter typeParameters s))
    | .constructSignature typeParameters parameters result =>
      walk visit .type result (walkList? visit .parameter parameters
        (walkList? visit .typeParameter typeParameters s))
    | .indexSignature _ parameters type =>
      walk visit .type type (walkList visit .parameter parameters s)
    | .propertyDeclaration _ name _ type =>
      walk visit .type type (walk visit .propertyName name s)
    | .methodDeclaration _ name _ typeParameters parameters result =>
      walk visit .type result (walkList? visit .parameter parameters
        (walkList? visit .typeParameter typeParameters (walk visit .propertyName name s)))
    | .constructorDeclaration _ _ parameters => walkList? visit .parameter parameters s
    | .enumMember name _ => walk visit .propertyName name s
    | .interfaceDeclaration _ name typeParameters heritage members =>
      walkList visit .typeMember members (walkList? visit .part heritage
        (walkList? visit .typeParameter typeParameters (walk visit .identifier name s)))
    | .classDeclaration _ name typeParameters heritage members =>
      walkList visit .classMember members (walkList? visit .part heritage
        (walkList? visit .typeParameter typeParameters (walk visit .identifier name s)))
    | .enumDeclaration _ name members =>
      walkList visit .enumMember members (walk visit .identifier name s)
    | .functionDeclaration _ name typeParameters parameters result =>
      walk visit .type result (walkList? visit .parameter parameters
        (walkList? visit .typeParameter typeParameters (walk visit .identifier name s)))
    | .typeAliasDeclaration _ name typeParameters type =>
      walk visit .type type (walkList? visit .typeParameter typeParameters
        (walk visit .identifier name s))
    | .variableStatement _ declarations => walk visit .part declarations s
    | .variableDeclarationList _ declarations => walkList visit .part declarations s
    | .variableDeclaration name type => walk visit .type type (walk visit .identifier name s)
    | .moduleDeclaration _ _ name body => walk? visit .part body (walk visit .part name s)
    | .moduleBlock statements => walkList visit .statement statements s
    | .importDeclaration clause _ => walk? visit .part clause s
    | .importClause _ name bindings =>
      walk? visit .part bindings (walk? visit .identifier name s)
    | .namespaceImport name => walk visit .identifier name s
    | .namedImports elements => walkList visit .part elements s
    | .importSpecifier _ _ name => walk visit .identifier name s
    | .exportDeclaration _ clause _ => walk? visit .part clause s
    | .namedExports elements => walkList visit .part elements s
    | .exportSpecifier _ _ name => walk visit .identifier name s
    | .exportAssignment _ expression => walk visit .entityName expression s
    | .namespaceExportDeclaration name => walk visit .identifier name s
    | .sourceFile statements => walkList visit .statement statements s
    | .token _ | .stringLiteral _ | .numericLiteral _ | .keywordType _ | .thisType
    | .literalType _ => s

def walk? (visit : Visitor σ) (place : Place) (n : Option Node) (s : σ) : σ :=
  match n with
  | none => s
  | some n => walk visit place n s

def walkList (visit : Visitor σ) (place : Place) (ns : List Node) (s : σ) : σ :=
  match ns with
  | [] => s
  | n :: ns => walkList visit place ns (walk visit place n s)

def walkList? (visit : Visitor σ) (place : Place) (ns : Option (List Node)) (s : σ) : σ :=
  match ns with
  | none => s
  | some ns => walkList visit place ns s

end

end Node

end Ambient

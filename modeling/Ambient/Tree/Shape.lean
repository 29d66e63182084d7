import Ambient.Tree.Node

namespace Ambient

/-- What a node is built like: one shape for each constructor of `Node`. -/
inductive Shape where
  | token | identifier | qualifiedName | stringLiteral | numericLiteral | keywordType | thisType
  | typeReference | typePredicate | functionType | constructorType | typeQuery | typeLiteral
  | arrayType | tupleType | optionalType | restType | namedTupleMember | unionType
  | intersectionType | parenthesizedType | typeOperator | indexedAccessType | mappedType
  | literalType | typeParameter | parameter | heritageClause | expressionWithTypeArguments
  | propertySignature | methodSignature | callSignature | constructSignature | indexSignature
  | propertyDeclaration | methodDeclaration | constructorDeclaration | interfaceDeclaration
  | classDeclaration | enumDeclaration | enumMember | functionDeclaration | typeAliasDeclaration
  | variableStatement | variableDeclarationList | variableDeclaration | moduleDeclaration
  | moduleBlock | importDeclaration | importClause | namespaceImport | namedImports
  | importSpecifier | exportDeclaration | namedExports | exportSpecifier | exportAssignment
  | namespaceExportDeclaration | sourceFile
deriving DecidableEq

namespace Shape

/-- The name by which error messages call a shape. -/
def name : Shape → String
  | .token => "Token"
  | .identifier => "Identifier"
  | .qualifiedName => "QualifiedName"
  | .stringLiteral => "StringLiteral"
  | .numericLiteral => "NumericLiteral"
  | .keywordType => "KeywordTypeNode"
  | .thisType => "ThisTypeNode"
  | .typeReference => "TypeReferenceNode"
  | .typePredicate => "TypePredicateNode"
  | .functionType => "FunctionTypeNode"
  | .constructorType => "ConstructorTypeNode"
  | .typeQuery => "TypeQueryNode"
  | .typeLiteral => "TypeLiteralNode"
  | .arrayType => "ArrayTypeNode"
  | .tupleType => "TupleTypeNode"
  | .optionalType => "OptionalTypeNode"
  | .restType => "RestTypeNode"
  | .namedTupleMember => "NamedTupleMemberNode"
  | .unionType => "UnionTypeNode"
  | .intersectionType => "IntersectionTypeNode"
  | .parenthesizedType => "ParenthesizedTypeNode"
  | .typeOperator => "TypeOperatorNode"
  | .indexedAccessType => "IndexedAccessTypeNode"
  | .mappedType => "MappedTypeNode"
  | .literalType => "LiteralTypeNode"
  | .typeParameter => "TypeParameterDeclaration"
  | .parameter => "ParameterDeclaration"
  | .heritageClause => "HeritageClause"
  | .expressionWithTypeArguments => "ExpressionWithTypeArgumentsNode"
  | .propertySignature => "PropertySignatureNode"
  | .methodSignature => "MethodSignatureNode"
  | .callSignature => "CallSignatureNode"
  | .constructSignature => "ConstructSignatureNode"
  | .indexSignature => "IndexSignatureNode"
  | .propertyDeclaration => "PropertyDeclarationNode"
  | .methodDeclaration => "MethodDeclarationNode"
  | .constructorDeclaration => "ConstructorDeclaration"
  | .interfaceDeclaration => "InterfaceDeclaration"
  | .classDeclaration => "ClassDeclaration"
  | .enumDeclaration => "EnumDeclaration"
  | .enumMember => "EnumMember"
  | .functionDeclaration => "FunctionDeclaration"
  | .typeAliasDeclaration => "TypeAliasDeclaration"
  | .variableStatement => "VariableStatement"
  | .variableDeclarationList => "VariableDeclarationList"
  | .variableDeclaration => "VariableDeclaration"
  | .moduleDeclaration => "ModuleDeclaration"
  | .moduleBlock => "ModuleBlock"
  | .importDeclaration => "ImportDeclaration"
  | .importClause => "ImportClause"
  | .namespaceImport => "NamespaceImport"
  | .namedImports => "NamedImports"
  | .importSpecifier => "ImportSpecifier"
  | .exportDeclaration => "ExportDeclaration"
  | .namedExports => "NamedExports"
  | .exportSpecifier => "ExportSpecifier"
  | .exportAssignment => "ExportAssignment"
  | .namespaceExportDeclaration => "NamespaceExportDeclaration"
  | .sourceFile => "SourceFile"

/-- The kind of every node of a shape, for the shapes with only one. -/
def kind? : Shape → Option Kind
  | .token | .keywordType => none
  | .identifier => some .identifier
  | .qualifiedName => some .qualifiedName
  | .stringLiteral => some .stringLiteral
  | .numericLiteral => some .numericLiteral
  | .thisType => some .thisType
  | .typeReference => some .typeReference
  | .typePredicate => some .typePredicate
  | .functionType => some .functionType
  | .constructorType => some .constructorType
  | .typeQuery => some .typeQuery
  | .typeLiteral => some .typeLiteral
  | .arrayType => some .arrayType
  | .tupleType => some .tupleType
  | .optionalType => some .optionalType
  | .restType => some .restType
  | .namedTupleMember => some .namedTupleMember
  | .unionType => some .unionType
  | .intersectionType => some .intersectionType
  | .parenthesizedType => some .parenthesizedType
  | .typeOperator => some .typeOperator
  | .indexedAccessType => some .indexedAccessType
  | .mappedType => some .mappedType
  | .literalType => some .literalType
  | .typeParameter => some .typeParameter
  | .parameter => some .parameter
  | .heritageClause => some .heritageClause
  | .expressionWithTypeArguments => some .expressionWithTypeArguments
  | .propertySignature => some .propertySignature
  | .methodSignature => some .methodSignature
  | .callSignature => some .callSignature
  | .constructSignature => some .constructSignature
  | .indexSignature => some .indexSignature
  | .propertyDeclaration => some .propertyDeclaration
  | .methodDeclaration => some .methodDeclaration
  | .constructorDeclaration => some .constructor
  | .interfaceDeclaration => some .interfaceDeclaration
  | .classDeclaration => some .classDeclaration
  | .enumDeclaration => some .enumDeclaration
  | .enumMember => some .enumMember
  | .functionDeclaration => some .functionDeclaration
  | .typeAliasDeclaration => some .typeAliasDeclaration
  | .variableStatement => some .variableStatement
  | .variableDeclarationList => some .variableDeclarationList
  | .variableDeclaration => some .variableDeclaration
  | .moduleDeclaration => some .moduleDeclaration
  | .moduleBlock => some .moduleBlock
  | .importDeclaration => some .importDeclaration
  | .importClause => some .importClause
  | .namespaceImport => some .namespaceImport
  | .namedImports => some .namedImports
  | .importSpecifier => some .importSpecifier
  | .exportDeclaration => some .exportDeclaration
  | .namedExports => some .namedExports
  | .exportSpecifier => some .exportSpecifier
  | .exportAssignment => some .exportAssignment
  | .namespaceExportDeclaration => some .namespaceExportDeclaration
  | .sourceFile => some .sourceFile

/-- Whether a node of a shape may be of kind `k`. A token is punctuation or a keyword that is no
type by itself. -/
def accepts (s : Shape) (k : Kind) : Bool :=
  match s with
  | .token => k.isPunctuation || (k.isAnyKeyword && !k.isKeywordType)
  | .keywordType => k.isKeywordType
  | s => s.kind? = some k

/-- All shapes. -/
def all : List Shape := [
  .token, .identifier, .qualifiedName, .stringLiteral, .numericLiteral, .keywordType, .thisType,
  .typeReference, .typePredicate, .functionType, .constructorType, .typeQuery, .typeLiteral,
  .arrayType, .tupleType, .optionalType, .restType, .namedTupleMember, .unionType,
  .intersectionType, .parenthesizedType, .typeOperator, .indexedAccessType, .mappedType,
  .literalType, .typeParameter, .parameter, .heritageClause, .expressionWithTypeArguments,
  .propertySignature, .methodSignature, .callSignature, .constructSignature, .indexSignature,
  .propertyDeclaration, .methodDeclaration, .constructorDeclaration, .interfaceDeclaration,
  .classDeclaration, .enumDeclaration, .enumMember, .functionDeclaration, .typeAliasDeclaration,
  .variableStatement, .variableDeclarationList, .variableDeclaration, .moduleDeclaration,
  .moduleBlock, .importDeclaration, .importClause, .namespaceImport, .namedImports,
  .importSpecifier, .exportDeclaration, .namedExports, .exportSpecifier, .exportAssignment,
  .namespaceExportDeclaration, .sourceFile]

end Shape

/-- A place in a tree, by the nodes that may stand there. -/
inductive Category where
  | node | entityName | literal | propertyName | type | predicateSubject | typeMember | classMember
  | statement | moduleName | moduleBody | importBindings
deriving DecidableEq

namespace Category

/-- The name by which error messages call a category. -/
def name : Category → String
  | .node => "Node"
  | .entityName => "EntityName"
  | .literal => "LiteralExpression"
  | .propertyName => "PropertyName"
  | .type => "TypeNode"
  | .predicateSubject => "TypePredicateParameterName"
  | .typeMember => "TypeElement"
  | .classMember => "ClassElement"
  | .statement => "Statement"
  | .moduleName => "ModuleName"
  | .moduleBody => "ModuleBody"
  | .importBindings => "NamedImportBindings"

/-- The shapes of a category, each with the name of its role there. -/
def variants : Category → List (String × Shape)
  | .node => [
      ("Token", .token), ("Identifier", .identifier), ("QualifiedName", .qualifiedName),
      ("StringLiteral", .stringLiteral), ("NumericLiteral", .numericLiteral),
      ("KeywordType", .keywordType), ("ThisType", .thisType), ("TypeReference", .typeReference),
      ("TypePredicate", .typePredicate), ("FunctionType", .functionType),
      ("ConstructorType", .constructorType), ("TypeQuery", .typeQuery),
      ("TypeLiteral", .typeLiteral), ("ArrayType", .arrayType), ("TupleType", .tupleType),
      ("OptionalType", .optionalType), ("RestType", .restType),
      ("NamedTupleMember", .namedTupleMember), ("UnionType", .unionType),
      ("IntersectionType", .intersectionType), ("ParenthesizedType", .parenthesizedType),
      ("TypeOperator", .typeOperator), ("IndexedAccessType", .indexedAccessType),
      ("MappedType", .mappedType), ("LiteralType", .literalType),
      ("TypeParameter", .typeParameter), ("Parameter", .parameter),
      ("HeritageClause", .heritageClause),
      ("ExpressionWithTypeArguments", .expressionWithTypeArguments),
      ("PropertySignature", .propertySignature), ("MethodSignature", .methodSignature),
      ("CallSignature", .callSignature), ("ConstructSignature", .constructSignature),
      ("IndexSignature", .indexSignature), ("PropertyDeclaration", .propertyDeclaration),
      ("MethodDeclaration", .methodDeclaration), ("Constructor", .constructorDeclaration),
      ("InterfaceDeclaration", .interfaceDeclaration), ("ClassDeclaration", .classDeclaration),
      ("EnumDeclaration", .enumDeclaration), ("EnumMember", .enumMember),
      ("FunctionDeclaration", .functionDeclaration),
      ("TypeAliasDeclaration", .typeAliasDeclaration), ("VariableStatement", .variableStatement),
      ("VariableDeclarationList", .variableDeclarationList),
      ("VariableDeclaration", .variableDeclaration), ("ModuleDeclaration", .moduleDeclaration),
      ("ModuleBlock", .moduleBlock), ("ImportDeclaration", .importDeclaration),
      ("ImportClause", .importClause), ("NamespaceImport", .namespaceImport),
      ("NamedImports", .namedImports), ("ImportSpecifier", .importSpecifier),
      ("ExportDeclaration", .exportDeclaration), ("NamedExports", .namedExports),
      ("ExportSpecifier", .exportSpecifier), ("ExportAssignment", .exportAssignment),
      ("NamespaceExportDeclaration", .namespaceExportDeclaration), ("SourceFile", .sourceFile)]
  | .entityName => [
      ("Identifier", .identifier), ("QualifiedName", .qualifiedName)]
  | .literal => [
      ("StringLiteral", .stringLiteral), ("NumericLiteral", .numericLiteral),
      ("BooleanLiteral", .token)]
  | .propertyName => [
      ("Identifier", .identifier), ("StringLiteral", .stringLiteral),
      ("NumericLiteral", .numericLiteral)]
  | .type => [
      ("KeywordType", .keywordType), ("ThisType", .thisType), ("TypeReference", .typeReference),
      ("TypePredicate", .typePredicate), ("FunctionType", .functionType),
      ("ConstructorType", .constructorType), ("TypeQuery", .typeQuery),
      ("TypeLiteral", .typeLiteral), ("ArrayType", .arrayType), ("TupleType", .tupleType),
      ("OptionalType", .optionalType), ("RestType", .restType),
      ("NamedTupleMember", .namedTupleMember), ("UnionType", .unionType),
      ("IntersectionType", .intersectionType), ("ParenthesizedType", .parenthesizedType),
      ("TypeOperator", .typeOperator), ("IndexedAccessType", .indexedAccessType),
      ("MappedType", .mappedType), ("LiteralType", .literalType)]
  | .predicateSubject => [
      ("Identifier", .identifier), ("ThisType", .thisType)]
  | .typeMember => [
      ("PropertySignature", .propertySignature), ("MethodSignature", .methodSignature),
      ("CallSignature", .callSignature), ("ConstructSignature", .constructSignature),
      ("IndexSignature", .indexSignature)]
  | .classMember => [
      ("PropertyDeclaration", .propertyDeclaration), ("MethodDeclaration", .methodDeclaration),
      ("Constructor", .constructorDeclaration), ("IndexSignature", .indexSignature)]
  | .statement => [
      ("VariableStatement", .variableStatement), ("FunctionDeclaration", .functionDeclaration),
      ("ClassDeclaration", .classDeclaration), ("InterfaceDeclaration", .interfaceDeclaration),
      ("TypeAliasDeclaration", .typeAliasDeclaration), ("EnumDeclaration", .enumDeclaration),
      ("ModuleDeclaration", .moduleDeclaration), ("ImportDeclaration", .importDeclaration),
      ("ExportDeclaration", .exportDeclaration), ("ExportAssignment", .exportAssignment),
      ("NamespaceExportDeclaration", .namespaceExportDeclaration)]
  | .moduleName => [
      ("Identifier", .identifier), ("StringLiteral", .stringLiteral)]
  | .moduleBody => [
      ("ModuleBlock", .moduleBlock), ("ModuleDeclaration", .moduleDeclaration)]
  | .importBindings => [
      ("NamespaceImport", .namespaceImport), ("NamedImports", .namedImports)]

/-- The shape that a node of kind `k` has in a category. -/
def shape? (c : Category) (k : Kind) : Option Shape :=
  (c.variants.find? fun entry => entry.2.accepts k).map Prod.snd

/-- Whether a node of kind `k` may stand in a category. -/
def accepts (c : Category) (k : Kind) : Bool := c.variants.any fun entry => entry.2.accepts k

/-- The names of the roles that a node of kind `k` may have in a category. -/
def roles (c : Category) (k : Kind) : List String :=
  (c.variants.filter fun entry => entry.2.accepts k).map Prod.fst

/-- All categories. -/
def all : List Category := [
  .node, .entityName, .literal, .propertyName, .type, .predicateSubject, .typeMember, .classMember,
  .statement, .moduleName, .moduleBody, .importBindings]

end Category

/-- What a value is to be decoded as. -/
inductive Target where
  | category (c : Category)
  | shape (s : Shape)
deriving DecidableEq

namespace Target

def name : Target → String
  | .category c => c.name
  | .shape s => s.name

def accepts : Target → Kind → Bool
  | .category c => c.accepts
  | .shape s => s.accepts

/-- The target with a given name. -/
def ofName? (name : String) : Option Target :=
  (Category.all.map Target.category ++ Shape.all.map Target.shape).find? fun t => t.name == name

end Target

namespace Node

def shape : Node → Shape
  | .token .. => .token
  | .identifier .. => .identifier
  | .qualifiedName .. => .qualifiedName
  | .stringLiteral .. => .stringLiteral
  | .numericLiteral .. => .numericLiteral
  | .keywordType .. => .keywordType
  | .thisType .. => .thisType
  | .typeReference .. => .typeReference
  | .typePredicate .. => .typePredicate
  | .functionType .. => .functionType
  | .constructorType .. => .constructorType
  | .typeQuery .. => .typeQuery
  | .typeLiteral .. => .typeLiteral
  | .arrayType .. => .arrayType
  | .tupleType .. => .tupleType
  | .optionalType .. => .optionalType
  | .restType .. => .restType
  | .namedTupleMember .. => .namedTupleMember
  | .unionType .. => .unionType
  | .intersectionType .. => .intersectionType
  | .parenthesizedType .. => .parenthesizedType
  | .typeOperator .. => .typeOperator
  | .indexedAccessType .. => .indexedAccessType
  | .mappedType .. => .mappedType
  | .literalType .. => .literalType
  | .typeParameter .. => .typeParameter
  | .parameter .. => .parameter
  | .heritageClause .. => .heritageClause
  | .expressionWithTypeArguments .. => .expressionWithTypeArguments
  | .propertySignature .. => .propertySignature
  | .methodSignature .. => .methodSignature
  | .callSignature .. => .callSignature
  | .constructSignature .. => .constructSignature
  | .indexSignature .. => .indexSignature
  | .propertyDeclaration .. => .propertyDeclaration
  | .methodDeclaration .. => .methodDeclaration
  | .constructorDeclaration .. => .constructorDeclaration
  | .interfaceDeclaration .. => .interfaceDeclaration
  | .classDeclaration .. => .classDeclaration
  | .enumDeclaration .. => .enumDeclaration
  | .enumMember .. => .enumMember
  | .functionDeclaration .. => .functionDeclaration
  | .typeAliasDeclaration .. => .typeAliasDeclaration
  | .variableStatement .. => .variableStatement
  | .variableDeclarationList .. => .variableDeclarationList
  | .variableDeclaration .. => .variableDeclaration
  | .moduleDeclaration .. => .moduleDeclaration
  | .moduleBlock .. => .moduleBlock
  | .importDeclaration .. => .importDeclaration
  | .importClause .. => .importClause
  | .namespaceImport .. => .namespaceImport
  | .namedImports .. => .namedImports
  | .importSpecifier .. => .importSpecifier
  | .exportDeclaration .. => .exportDeclaration
  | .namedExports .. => .namedExports
  | .exportSpecifier .. => .exportSpecifier
  | .exportAssignment .. => .exportAssignment
  | .namespaceExportDeclaration .. => .namespaceExportDeclaration
  | .sourceFile .. => .sourceFile

/-- The kind of a node. -/
def kind : Node → Kind
  | .token k => k
  | .keywordType k => k
  | n => n.shape.kind?.getD .unknown

end Node

end Ambient

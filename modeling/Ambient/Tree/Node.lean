import Ambient.Kind.Class

namespace Ambient

/-- A node of a syntax tree. A list that the source may leave out is `none` where nothing is written,
which is not the same as an empty list. -/
inductive Node where
  /-- A keyword or a punctuator that stands for itself. -/
  | token (kind : Kind)
  /-- A name, with the documentation of what it declares. -/
  | identifier (text : String) (comment : Option String)
  | qualifiedName (left right : Node)
  /-- What stands between the quotes. -/
  | stringLiteral (text : String)
  /-- The digits as they are written. -/
  | numericLiteral (text : String)
  /-- A keyword that is a type by itself. -/
  | keywordType (kind : Kind)
  | thisType
  | typeReference (name : Node) (typeArguments : Option (List Node))
  | typePredicate (asserts : Option Node) (subject : Node) (type : Option Node)
  | functionType (typeParameters parameters : Option (List Node)) (result : Node)
  | constructorType (modifiers typeParameters parameters : Option (List Node)) (result : Node)
  | typeQuery (name : Node) (typeArguments : Option (List Node))
  | typeLiteral (members : List Node)
  | arrayType (element : Node)
  | tupleType (elements : List Node)
  | optionalType (type : Node)
  | restType (type : Node)
  | namedTupleMember (dots : Option Node) (name : Node) (question : Option Node) (type : Node)
  | unionType (types : List Node)
  | intersectionType (types : List Node)
  | parenthesizedType (type : Node)
  | typeOperator (operator : Kind) (type : Node)
  | indexedAccessType (object index : Node)
  | mappedType (readonlyToken : Option Node) (typeParameter : Node) (nameType : Option Node)
      (question : Option Node) (type : Option Node)
  | literalType (literal : Node)
  | typeParameter (name : Node) (constraint defaultType : Option Node)
  | parameter (modifiers : Option (List Node)) (dots : Option Node) (name : Node)
      (question : Option Node) (type : Node)
  | heritageClause (types : List Node)
  | expressionWithTypeArguments (expression : Node) (typeArguments : Option (List Node))
  | propertySignature (modifiers : Option (List Node)) (name : Node) (question : Option Node)
      (type : Node)
  | methodSignature (name : Node) (question : Option Node)
      (typeParameters parameters : Option (List Node)) (result : Node)
  | callSignature (typeParameters parameters : Option (List Node)) (result : Node)
  | constructSignature (typeParameters parameters : Option (List Node)) (result : Node)
  | indexSignature (modifiers : Option (List Node)) (parameters : List Node) (type : Node)
  | propertyDeclaration (modifiers : Option (List Node)) (name : Node) (question : Option Node)
      (type : Node)
  | methodDeclaration (modifiers : Option (List Node)) (name : Node) (question : Option Node)
      (typeParameters parameters : Option (List Node)) (result : Node)
  /-- A constructor has no name, so it holds its documentation itself. -/
  | constructorDeclaration (comment : Option String) (modifiers parameters : Option (List Node))
  | interfaceDeclaration (modifiers : Option (List Node)) (name : Node)
      (typeParameters heritage : Option (List Node)) (members : List Node)
  | classDeclaration (modifiers : Option (List Node)) (name : Node)
      (typeParameters heritage : Option (List Node)) (members : List Node)
  | enumDeclaration (modifiers : Option (List Node)) (name : Node) (members : List Node)
  | enumMember (name : Node) (initializer : Option Node)
  | functionDeclaration (modifiers : Option (List Node)) (name : Node)
      (typeParameters parameters : Option (List Node)) (result : Node)
  | typeAliasDeclaration (modifiers : Option (List Node)) (name : Node)
      (typeParameters : Option (List Node)) (type : Node)
  | variableStatement (modifiers : Option (List Node)) (declarationList : Node)
  | variableDeclarationList (flags : UInt32) (declarations : List Node)
  | variableDeclaration (name type : Node)
  | moduleDeclaration (flags : UInt32) (modifiers : Option (List Node)) (name : Node)
      (body : Option Node)
  | moduleBlock (statements : List Node)
  | importDeclaration (importClause : Option Node) (moduleSpecifier : Node)
  | importClause (isTypeOnly : Bool) (name namedBindings : Option Node)
  | namespaceImport (name : Node)
  | namedImports (elements : List Node)
  | importSpecifier (isTypeOnly : Bool) (propertyName : Option Node) (name : Node)
  | exportDeclaration (isTypeOnly : Bool) (exportClause moduleSpecifier : Option Node)
  | namedExports (elements : List Node)
  | exportSpecifier (isTypeOnly : Bool) (propertyName : Option Node) (name : Node)
  | exportAssignment (isExportEquals : Bool) (expression : Node)
  | namespaceExportDeclaration (name : Node)
  | sourceFile (statements : List Node)
deriving Inhabited

namespace Flags

/-- Set for variables declared with `let`. -/
def letBit : UInt32 := 0x1

/-- Set for variables declared with `const`. -/
def constBit : UInt32 := 0x2

/-- Set for the inner segments of a dotted namespace name. -/
def nestedBit : UInt32 := 0x8

/-- Set for modules declared with `namespace`. -/
def namespaceBit : UInt32 := 0x20

/-- Set for a block that adds to the global scope. -/
def globalBit : UInt32 := 0x800

end Flags

end Ambient

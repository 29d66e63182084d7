import Ambient.Json.Printer
import Ambient.Tree.Shape

namespace Ambient

namespace Member

/-- A member of an encoded node, or nothing if it is absent. -/
abbrev Encoded := Option (String × Json)

def text (key : String) (value : String) : Encoded := some (key, .string value)

def text? (key : String) (value : Option String) : Encoded := value.map fun s => (key, .string s)

def flag (key : String) (value : Bool) : Encoded := some (key, .bool value)

def bits (key : String) (value : UInt32) : Encoded := some (key, .nat value.toNat)

def code (key : String) (value : Kind) : Encoded := some (key, .nat value.code)

def node (key : String) (value : Json) : Encoded := some (key, value)

def node? (key : String) (value : Option Json) : Encoded := value.map fun v => (key, v)

def list (key : String) (items : List Json) : Encoded := some (key, .array items)

def list? (key : String) (items : Option (List Json)) : Encoded :=
  items.map fun values => (key, .array values)

end Member

/-- The object of a node. -/
def encodeObject (kind : Kind) (members : List Member.Encoded) : Json :=
  .object (("Kind", .nat kind.code) :: members.filterMap id)

namespace Node

open Member

mutual

/-- The interchange form of a tree. -/
def encode : Node → Json
  | .token k => encodeObject k []
  | .identifier value comment =>
    encodeObject .identifier [text "Text" value, text? "Comment" comment]
  | .qualifiedName left right =>
    encodeObject .qualifiedName [node "Left" left.encode, node "Right" right.encode]
  | .stringLiteral value => encodeObject .stringLiteral [text "Text" value]
  | .numericLiteral value => encodeObject .numericLiteral [text "Text" value]
  | .keywordType k => encodeObject k []
  | .thisType => encodeObject .thisType []
  | .typeReference name typeArguments =>
    encodeObject .typeReference
      [node "TypeName" name.encode, list? "TypeArguments" (encodeList? typeArguments)]
  | .typePredicate asserts subject type =>
    encodeObject .typePredicate
      [node? "AssertsModifier" (encode? asserts), node "ParameterName" subject.encode,
        node? "Type" (encode? type)]
  | .functionType typeParameters parameters result =>
    encodeObject .functionType
      [list? "TypeParameters" (encodeList? typeParameters),
        list? "Parameters" (encodeList? parameters), node "Type" result.encode]
  | .constructorType modifiers typeParameters parameters result =>
    encodeObject .constructorType
      [list? "Modifiers" (encodeList? modifiers),
        list? "TypeParameters" (encodeList? typeParameters),
        list? "Parameters" (encodeList? parameters), node "Type" result.encode]
  | .typeQuery name typeArguments =>
    encodeObject .typeQuery
      [node "ExprName" name.encode, list? "TypeArguments" (encodeList? typeArguments)]
  | .typeLiteral members => encodeObject .typeLiteral [list "Members" (encodeList members)]
  | .arrayType element => encodeObject .arrayType [node "ElementType" element.encode]
  | .tupleType elements => encodeObject .tupleType [list "Elements" (encodeList elements)]
  | .optionalType type => encodeObject .optionalType [node "Type" type.encode]
  | .restType type => encodeObject .restType [node "Type" type.encode]
  | .namedTupleMember dots name question type =>
    encodeObject .namedTupleMember
      [node? "DotDotDotToken" (encode? dots), node "Name" name.encode,
        node? "QuestionToken" (encode? question), node "Type" type.encode]
  | .unionType types => encodeObject .unionType [list "Types" (encodeList types)]
  | .intersectionType types => encodeObject .intersectionType [list "Types" (encodeList types)]
  | .parenthesizedType type => encodeObject .parenthesizedType [node "Type" type.encode]
  | .typeOperator operator type =>
    encodeObject .typeOperator [code "Operator" operator, node "Type" type.encode]
  | .indexedAccessType object index =>
    encodeObject .indexedAccessType
      [node "ObjectType" object.encode, node "IndexType" index.encode]
  | .mappedType readonlyToken bound nameType question type =>
    encodeObject .mappedType
      [node? "ReadonlyToken" (encode? readonlyToken), node "TypeParameter" bound.encode,
        node? "NameType" (encode? nameType), node? "QuestionToken" (encode? question),
        node? "Type" (encode? type)]
  | .literalType literal => encodeObject .literalType [node "Literal" literal.encode]
  | .typeParameter name constraint defaultType =>
    encodeObject .typeParameter
      [node "Name" name.encode, node? "Constraint" (encode? constraint),
        node? "Default" (encode? defaultType)]
  | .parameter modifiers dots name question type =>
    encodeObject .parameter
      [list? "Modifiers" (encodeList? modifiers), node? "DotDotDotToken" (encode? dots),
        node "Name" name.encode, node? "QuestionToken" (encode? question),
        node "Type" type.encode]
  | .heritageClause types => encodeObject .heritageClause [list "Types" (encodeList types)]
  | .expressionWithTypeArguments expression typeArguments =>
    encodeObject .expressionWithTypeArguments
      [node "Expression" expression.encode, list? "TypeArguments" (encodeList? typeArguments)]
  | .propertySignature modifiers name question type =>
    encodeObject .propertySignature
      [list? "Modifiers" (encodeList? modifiers), node "Name" name.encode,
        node? "QuestionToken" (encode? question), node "Type" type.encode]
  | .methodSignature name question typeParameters parameters result =>
    encodeObject .methodSignature
      [node "Name" name.encode, node? "QuestionToken" (encode? question),
        list? "TypeParameters" (encodeList? typeParameters),
        list? "Parameters" (encodeList? parameters), node "Type" result.encode]
  | .callSignature typeParameters parameters result =>
    encodeObject .callSignature
      [list? "TypeParameters" (encodeList? typeParameters),
        list? "Parameters" (encodeList? parameters), node "Type" result.encode]
  | .constructSignature typeParameters parameters result =>
    encodeObject .constructSignature
      [list? "TypeParameters" (encodeList? typeParameters),
        list? "Parameters" (encodeList? parameters), node "Type" result.encode]
  | .indexSignature modifiers parameters type =>
    encodeObject .indexSignature
      [list? "Modifiers" (encodeList? modifiers), list "Parameters" (encodeList parameters),
        node "Type" type.encode]
  | .propertyDeclaration modifiers name question type =>
    encodeObject .propertyDeclaration
      [list? "Modifiers" (encodeList? modifiers), node "Name" name.encode,
        node? "QuestionToken" (encode? question), node "Type" type.encode]
  | .methodDeclaration modifiers name question typeParameters parameters result =>
    encodeObject .methodDeclaration
      [list? "Modifiers" (encodeList? modifiers), node "Name" name.encode,
        node? "QuestionToken" (encode? question),
        list? "TypeParameters" (encodeList? typeParameters),
        list? "Parameters" (encodeList? parameters), node "Type" result.encode]
  | .constructorDeclaration comment modifiers parameters =>
    encodeObject .constructor
      [text? "Comment" comment, list? "Modifiers" (encodeList? modifiers),
        list? "Parameters" (encodeList? parameters)]
  | .interfaceDeclaration modifiers name typeParameters heritage members =>
    encodeObject .interfaceDeclaration
      [list? "Modifiers" (encodeList? modifiers), node "Name" name.encode,
        list? "TypeParameters" (encodeList? typeParameters),
        list? "HeritageClauses" (encodeList? heritage), list "Members" (encodeList members)]
  | .classDeclaration modifiers name typeParameters heritage members =>
    encodeObject .classDeclaration
      [list? "Modifiers" (encodeList? modifiers), node "Name" name.encode,
        list? "TypeParameters" (encodeList? typeParameters),
        list? "HeritageClauses" (encodeList? heritage), list "Members" (encodeList members)]
  | .enumDeclaration modifiers name members =>
    encodeObject .enumDeclaration
      [list? "Modifiers" (encodeList? modifiers), node "Name" name.encode,
        list "Members" (encodeList members)]
  | .enumMember name initializer =>
    encodeObject .enumMember [node "Name" name.encode, node? "Initializer" (encode? initializer)]
  | .functionDeclaration modifiers name typeParameters parameters result =>
    encodeObject .functionDeclaration
      [list? "Modifiers" (encodeList? modifiers), node "Name" name.encode,
        list? "TypeParameters" (encodeList? typeParameters),
        list? "Parameters" (encodeList? parameters), node "Type" result.encode]
  | .typeAliasDeclaration modifiers name typeParameters type =>
    encodeObject .typeAliasDeclaration
      [list? "Modifiers" (encodeList? modifiers), node "Name" name.encode,
        list? "TypeParameters" (encodeList? typeParameters), node "Type" type.encode]
  | .variableStatement modifiers declarationList =>
    encodeObject .variableStatement
      [list? "Modifiers" (encodeList? modifiers), node "DeclarationList" declarationList.encode]
  | .variableDeclarationList flags declarations =>
    encodeObject .variableDeclarationList
      [bits "Flags" flags, list "Declarations" (encodeList declarations)]
  | .variableDeclaration name type =>
    encodeObject .variableDeclaration [node "Name" name.encode, node "Type" type.encode]
  | .moduleDeclaration flags modifiers name body =>
    encodeObject .moduleDeclaration
      [bits "Flags" flags, list? "Modifiers" (encodeList? modifiers), node "Name" name.encode,
        node? "Body" (encode? body)]
  | .moduleBlock statements =>
    encodeObject .moduleBlock [list "Statements" (encodeList statements)]
  | .importDeclaration clause specifier =>
    encodeObject .importDeclaration
      [node? "ImportClause" (encode? clause), node "ModuleSpecifier" specifier.encode]
  | .importClause isTypeOnly name namedBindings =>
    encodeObject .importClause
      [flag "IsTypeOnly" isTypeOnly, node? "Name" (encode? name),
        node? "NamedBindings" (encode? namedBindings)]
  | .namespaceImport name => encodeObject .namespaceImport [node "Name" name.encode]
  | .namedImports elements => encodeObject .namedImports [list "Elements" (encodeList elements)]
  | .importSpecifier isTypeOnly propertyName name =>
    encodeObject .importSpecifier
      [flag "IsTypeOnly" isTypeOnly, node? "PropertyName" (encode? propertyName),
        node "Name" name.encode]
  | .exportDeclaration isTypeOnly exportClause moduleSpecifier =>
    encodeObject .exportDeclaration
      [flag "IsTypeOnly" isTypeOnly, node? "ExportClause" (encode? exportClause),
        node? "ModuleSpecifier" (encode? moduleSpecifier)]
  | .namedExports elements => encodeObject .namedExports [list "Elements" (encodeList elements)]
  | .exportSpecifier isTypeOnly propertyName name =>
    encodeObject .exportSpecifier
      [flag "IsTypeOnly" isTypeOnly, node? "PropertyName" (encode? propertyName),
        node "Name" name.encode]
  | .exportAssignment isExportEquals expression =>
    encodeObject .exportAssignment
      [flag "IsExportEquals" isExportEquals, node "Expression" expression.encode]
  | .namespaceExportDeclaration name =>
    encodeObject .namespaceExportDeclaration [node "Name" name.encode]
  | .sourceFile statements =>
    encodeObject .sourceFile [list "Statements" (encodeList statements)]

def encode? : Option Node → Option Json
  | none => none
  | some n => some n.encode

def encodeList : List Node → List Json
  | [] => []
  | n :: ns => n.encode :: encodeList ns

def encodeList? : Option (List Node) → Option (List Json)
  | none => none
  | some ns => some (encodeList ns)

end

/-- The interchange text of a tree. -/
def toText (n : Node) : String := n.encode.compress

/-- The interchange text of a tree on several lines. -/
def toPrettyText (n : Node) : String := n.encode.pretty

/-- The interchange form of a tree as a value, whose members are in the order of their keys. -/
def toValue (n : Node) : Json := n.encode.canonical

/-- Whether two trees are written alike. -/
def same (a b : Node) : Bool := a.encode = b.encode

end Node

end Ambient

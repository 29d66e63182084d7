import Ambient.Interchange.Members
import Ambient.Json.Nesting
import Ambient.Json.Reader
import Ambient.Tree.Shape

namespace Ambient

/-- The kind that an encoded node states. -/
def readKind (v : Json) : Except Issue Kind :=
  match v.member? "Kind" with
  | some (.number (.integer n)) =>
    if 0 ≤ n then
      match Kind.ofCode? n.toNat with
      | some k => .ok k
      | none => .error (.unknownKind n.toNat)
    else .error .noKind
  | _ => .error .noKind

/-- The shape of an encoded node. -/
def Target.shapeOf (t : Target) (v : Json) : Except Issue Shape :=
  match t with
  | .shape s => .ok s
  | .category c => do
    let k ← readKind v
    match c.shape? k with
    | some s => return s
    | none => throw (.unexpectedKind k c.name)

namespace Shape

/-- The `Kind` of a node of a given shape. -/
def kindMember (s : Shape) : Members Kind :=
  .required "Kind" fun v => do
    let k ← Reader.kind v
    if s.accepts k then return k else throw (.unexpectedKind k s.name)

/-- Modifiers are tokens of which every one is a modifier keyword. -/
def readModifiers (read : Reader Node) : Reader (List Node) := fun v => do
  let modifiers ← Reader.list read v
  match modifiers.find? fun m => !m.kind.isModifier with
  | some m => throw (.unexpectedKind m.kind "Modifier")
  | none => return modifiers

def readOperator : Reader Kind := fun v => do
  let k ← Reader.kind v
  if k.isTypeOperator then return k else throw (.unexpectedKind k "type operator")

open Members in
/-- The members of a node behind its `Kind`, given how its parts are read. -/
def body (read : Target → Reader Node) : Shape → Members (Kind → Node) :=
  let plain (m : Members Node) : Members (Kind → Node) := (fun n _ => n) <$> m
  let type := read (.category .type)
  let name := required "Name" (read (.shape .identifier))
  let propertyName := required "Name" (read (.category .propertyName))
  let token (key : String) := optional key (read (.shape .token))
  let modifiers := optional "Modifiers" (readModifiers (read (.shape .token)))
  let typeParameters := optional "TypeParameters" (Reader.list (read (.shape .typeParameter)))
  let parameters := optional "Parameters" (Reader.list (read (.shape .parameter)))
  let typeArguments := optional "TypeArguments" (Reader.list type)
  let heritage := optional "HeritageClauses" (Reader.list (read (.shape .heritageClause)))
  let statements := required "Statements" (Reader.list (read (.category .statement)))
  let flags := defaulted "Flags" 0 Reader.bits
  let isTypeOnly := defaulted "IsTypeOnly" false Reader.flag
  let text := required "Text" Reader.text
  let comment := optional "Comment" Reader.text
  let typed := required "Type" type
  fun
  | .token => pure Node.token
  | .identifier => plain <| Node.identifier <$> text <*> comment
  | .qualifiedName => plain <|
    Node.qualifiedName <$> required "Left" (read (.category .entityName))
      <*> required "Right" (read (.shape .identifier))
  | .stringLiteral => plain <| Node.stringLiteral <$> text
  | .numericLiteral => plain <| Node.numericLiteral <$> text
  | .keywordType => pure Node.keywordType
  | .thisType => plain <| pure Node.thisType
  | .typeReference => plain <|
    Node.typeReference <$> required "TypeName" (read (.category .entityName)) <*> typeArguments
  | .typePredicate => plain <|
    Node.typePredicate <$> token "AssertsModifier"
      <*> required "ParameterName" (read (.category .predicateSubject))
      <*> optional "Type" type
  | .functionType => plain <| Node.functionType <$> typeParameters <*> parameters <*> typed
  | .constructorType => plain <|
    Node.constructorType <$> modifiers <*> typeParameters <*> parameters <*> typed
  | .typeQuery => plain <|
    Node.typeQuery <$> required "ExprName" (read (.category .entityName)) <*> typeArguments
  | .typeLiteral => plain <|
    Node.typeLiteral <$> required "Members" (Reader.list (read (.category .typeMember)))
  | .arrayType => plain <| Node.arrayType <$> required "ElementType" type
  | .tupleType => plain <| Node.tupleType <$> required "Elements" (Reader.list type)
  | .optionalType => plain <| Node.optionalType <$> typed
  | .restType => plain <| Node.restType <$> typed
  | .namedTupleMember => plain <|
    Node.namedTupleMember <$> token "DotDotDotToken" <*> name <*> token "QuestionToken" <*> typed
  | .unionType => plain <| Node.unionType <$> required "Types" (Reader.list type)
  | .intersectionType => plain <| Node.intersectionType <$> required "Types" (Reader.list type)
  | .parenthesizedType => plain <| Node.parenthesizedType <$> typed
  | .typeOperator => plain <|
    Node.typeOperator <$> required "Operator" readOperator <*> typed
  | .indexedAccessType => plain <|
    Node.indexedAccessType <$> required "ObjectType" type <*> required "IndexType" type
  | .mappedType => plain <|
    Node.mappedType <$> token "ReadonlyToken"
      <*> required "TypeParameter" (read (.shape .typeParameter)) <*> optional "NameType" type
      <*> token "QuestionToken" <*> optional "Type" type
  | .literalType => plain <|
    Node.literalType <$> required "Literal" (read (.category .literal))
  | .typeParameter => plain <|
    Node.typeParameter <$> name <*> optional "Constraint" type <*> optional "Default" type
  | .parameter => plain <|
    Node.parameter <$> modifiers <*> token "DotDotDotToken" <*> name <*> token "QuestionToken"
      <*> typed
  | .heritageClause => plain <|
    Node.heritageClause <$>
      required "Types" (Reader.list (read (.shape .expressionWithTypeArguments)))
  | .expressionWithTypeArguments => plain <|
    Node.expressionWithTypeArguments <$> required "Expression" (read (.category .entityName))
      <*> typeArguments
  | .propertySignature => plain <|
    Node.propertySignature <$> modifiers <*> propertyName <*> token "QuestionToken" <*> typed
  | .methodSignature => plain <|
    Node.methodSignature <$> propertyName <*> token "QuestionToken" <*> typeParameters
      <*> parameters <*> typed
  | .callSignature => plain <| Node.callSignature <$> typeParameters <*> parameters <*> typed
  | .constructSignature => plain <|
    Node.constructSignature <$> typeParameters <*> parameters <*> typed
  | .indexSignature => plain <|
    Node.indexSignature <$> modifiers
      <*> required "Parameters" (Reader.list (read (.shape .parameter))) <*> typed
  | .propertyDeclaration => plain <|
    Node.propertyDeclaration <$> modifiers <*> propertyName <*> token "QuestionToken" <*> typed
  | .methodDeclaration => plain <|
    Node.methodDeclaration <$> modifiers <*> propertyName <*> token "QuestionToken"
      <*> typeParameters <*> parameters <*> typed
  | .constructorDeclaration => plain <|
    Node.constructorDeclaration <$> comment <*> modifiers <*> parameters
  | .interfaceDeclaration => plain <|
    Node.interfaceDeclaration <$> modifiers <*> name <*> typeParameters <*> heritage
      <*> required "Members" (Reader.list (read (.category .typeMember)))
  | .classDeclaration => plain <|
    Node.classDeclaration <$> modifiers <*> name <*> typeParameters <*> heritage
      <*> required "Members" (Reader.list (read (.category .classMember)))
  | .enumDeclaration => plain <|
    Node.enumDeclaration <$> modifiers <*> name
      <*> required "Members" (Reader.list (read (.shape .enumMember)))
  | .enumMember => plain <|
    Node.enumMember <$> propertyName <*> optional "Initializer" (read (.category .literal))
  | .functionDeclaration => plain <|
    Node.functionDeclaration <$> modifiers <*> name <*> typeParameters <*> parameters <*> typed
  | .typeAliasDeclaration => plain <|
    Node.typeAliasDeclaration <$> modifiers <*> name <*> typeParameters <*> typed
  | .variableStatement => plain <|
    Node.variableStatement <$> modifiers
      <*> required "DeclarationList" (read (.shape .variableDeclarationList))
  | .variableDeclarationList => plain <|
    Node.variableDeclarationList <$> flags
      <*> required "Declarations" (Reader.list (read (.shape .variableDeclaration)))
  | .variableDeclaration => plain <| Node.variableDeclaration <$> name <*> typed
  | .moduleDeclaration => plain <|
    Node.moduleDeclaration <$> flags <*> modifiers
      <*> required "Name" (read (.category .moduleName))
      <*> optional "Body" (read (.category .moduleBody))
  | .moduleBlock => plain <| Node.moduleBlock <$> statements
  | .importDeclaration => plain <|
    Node.importDeclaration <$> optional "ImportClause" (read (.shape .importClause))
      <*> required "ModuleSpecifier" (read (.shape .stringLiteral))
  | .importClause => plain <|
    Node.importClause <$> isTypeOnly <*> optional "Name" (read (.shape .identifier))
      <*> optional "NamedBindings" (read (.category .importBindings))
  | .namespaceImport => plain <| Node.namespaceImport <$> name
  | .namedImports => plain <|
    Node.namedImports <$> required "Elements" (Reader.list (read (.shape .importSpecifier)))
  | .importSpecifier => plain <|
    Node.importSpecifier <$> isTypeOnly <*> optional "PropertyName" (read (.shape .identifier))
      <*> name
  | .exportDeclaration => plain <|
    Node.exportDeclaration <$> isTypeOnly <*> optional "ExportClause" (read (.shape .namedExports))
      <*> optional "ModuleSpecifier" (read (.shape .stringLiteral))
  | .namedExports => plain <|
    Node.namedExports <$> required "Elements" (Reader.list (read (.shape .exportSpecifier)))
  | .exportSpecifier => plain <|
    Node.exportSpecifier <$> isTypeOnly <*> optional "PropertyName" (read (.shape .identifier))
      <*> name
  | .exportAssignment => plain <|
    Node.exportAssignment <$> defaulted "IsExportEquals" false Reader.flag
      <*> required "Expression" (read (.category .entityName))
  | .namespaceExportDeclaration => plain <| Node.namespaceExportDeclaration <$> name
  | .sourceFile => plain <| Node.sourceFile <$> statements

/-- All members of a node, its `Kind` first. -/
def members (read : Target → Reader Node) (s : Shape) : Members Node :=
  (fun k make => make k) <$> s.kindMember <*> s.body read

end Shape

/-- Reads a node of a category or shape; `levels` bounds the nesting of the value. -/
def readNode : Nat → Target → Reader Node
  | 0, _, _ => .error .noKind
  | levels + 1, t, v => do
    let s ← t.shapeOf v
    (s.members (readNode levels)).read s.name v

/-- Why a value or a text is not an encoded tree. -/
inductive DecodeError where
  | tooDeep
  /-- The text is not a JSON document. -/
  | malformed
  | noKind
  | unknownKind (code : Nat)
  | unexpectedKind (kind : Kind) (expected : String)
  /-- The kind is right, but something inside is not. -/
  | content (issue : Issue)

/-- How deep documents may nest. -/
def maxNesting : Nat := 4096

/-- The text of an error; what is wrong with a text that is not JSON is not told. -/
def DecodeError.message : DecodeError → String
  | .tooDeep => "document nests deeper than " ++ toString maxNesting ++ " levels"
  | .malformed => "malformed document"
  | .noKind => Issue.noKind.message
  | .unknownKind code => (Issue.unknownKind code).message
  | .unexpectedKind kind expected => (Issue.unexpectedKind kind expected).message
  | .content issue => issue.message

/-- The kind that an encoded node states, which comes before anything else is looked at. -/
def decodeKind (v : Json) : Except DecodeError Kind :=
  match readKind v with
  | .ok k => .ok k
  | .error (.unknownKind code) => .error (.unknownKind code)
  | .error _ => .error .noKind

/-- The tree that a value encodes. -/
def decode (t : Target) (v : Json) : Except DecodeError Node := do
  let k ← decodeKind v
  if t.accepts k then (readNode (v.depth + 1) t v).mapError .content
  else throw (.unexpectedKind k t.name)

/-- The tree that a text encodes. Texts that nest too deep are not read at all. -/
def decodeText (t : Target) (text : String) : Except DecodeError Node :=
  if maxNesting < Json.nestingDepth text then .error .tooDeep
  else
    match Json.parse? text with
    | none => .error .malformed
    | some v => decode t v

end Ambient

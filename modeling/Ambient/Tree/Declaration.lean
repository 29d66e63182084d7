import Ambient.Tree.Shape

namespace Ambient.Node

/-- The node that holds the name of a statement or a member. Several variables in one statement
go by the name of the first. -/
def nameNode? : Node → Option Node
  | .variableStatement _ (.variableDeclarationList _ (.variableDeclaration name _ :: _)) =>
    some name
  | .functionDeclaration _ name _ _ _ => some name
  | .classDeclaration _ name _ _ _ => some name
  | .interfaceDeclaration _ name _ _ _ => some name
  | .typeAliasDeclaration _ name _ _ => some name
  | .enumDeclaration _ name _ => some name
  | .moduleDeclaration _ _ name _ => some name
  | .namespaceExportDeclaration name => some name
  | .propertySignature _ name _ _ => some name
  | .methodSignature name _ _ _ _ => some name
  | .propertyDeclaration _ name _ _ => some name
  | .methodDeclaration _ name _ _ _ _ => some name
  | _ => none

/-- The text of a word or a literal, and of a qualified name with its dots. -/
def wordText : Node → String
  | .identifier text _ => text
  | .stringLiteral text => text
  | .numericLiteral text => text
  | .qualifiedName left right => left.wordText ++ "." ++ right.wordText
  | _ => ""

/-- The documentation that a node holds itself. -/
def ownComment? : Node → Option String
  | .identifier _ comment => comment
  | .constructorDeclaration comment _ _ => comment
  | _ => none

/-- The name of a statement or a member. -/
def declaredName? (n : Node) : Option String := n.nameNode?.map wordText

/-- The documentation of a statement, which its name holds. -/
def declaredComment? (n : Node) : Option String := n.nameNode?.bind ownComment?

/-- The modifiers of a statement or a class member. -/
def modifiers? : Node → Option (List Node)
  | .variableStatement modifiers _ => modifiers
  | .functionDeclaration modifiers _ _ _ _ => modifiers
  | .classDeclaration modifiers _ _ _ _ => modifiers
  | .interfaceDeclaration modifiers _ _ _ _ => modifiers
  | .typeAliasDeclaration modifiers _ _ _ => modifiers
  | .enumDeclaration modifiers _ _ => modifiers
  | .moduleDeclaration _ modifiers _ _ => modifiers
  | .propertyDeclaration modifiers _ _ _ => modifiers
  | .methodDeclaration modifiers _ _ _ _ _ => modifiers
  | .constructorDeclaration _ modifiers _ => modifiers
  | .indexSignature modifiers _ _ => modifiers
  | _ => none

/-- The bits of all modifiers of a statement or a class member. -/
def modifierFlags (n : Node) : Nat :=
  ((n.modifiers?.getD []).map fun m => m.kind.modifierBit).foldl (· ||| ·) 0

/-- The members of an interface, a class or an enumeration. -/
def members : Node → List Node
  | .interfaceDeclaration _ _ _ _ members => members
  | .classDeclaration _ _ _ _ members => members
  | .enumDeclaration _ _ members => members
  | _ => []

/-- The clauses with the types that an interface or a class builds on. -/
def heritage? : Node → Option (List Node)
  | .interfaceDeclaration _ _ _ heritage _ => heritage
  | .classDeclaration _ _ _ heritage _ => heritage
  | _ => none

/-- The names of the types in a heritage clause. -/
def heritageNames : Node → List String
  | .heritageClause types => types.filterMap fun
    | .expressionWithTypeArguments expression _ => some expression.wordText
    | _ => none
  | _ => []

/-- The statements of a file or a block, and of a module whose body is a block. -/
def statements? : Node → Option (List Node)
  | .sourceFile statements => some statements
  | .moduleBlock statements => some statements
  | .moduleDeclaration _ _ _ (some (.moduleBlock statements)) => some statements
  | _ => none

end Ambient.Node

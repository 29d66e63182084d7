import Ambient.Grammar.Type

namespace Ambient.Grammar

open Rule

variable {L : Type}

/-- The head of a declaration: its documentation and its modifiers. -/
def declarationHead (allowed : List Kind) : Rule L (Option String × Option (List Node)) := do
  let comment ← documentationHere
  return (comment, ← declarationModifiers allowed)

def interfaceDeclaration [Counter L] : Rule L Node := do
  let (comment, modifiers) ← declarationHead interfaceModifiers
  expect .interfaceKeyword
  let declared ← name comment
  let typeParameters ← typeParameters type
  let heritage ← heritage type
  return .interfaceDeclaration modifiers declared typeParameters heritage (← typeMembers type)

def classDeclaration [Counter L] : Rule L Node := do
  let (comment, modifiers) ← declarationHead classModifiers
  expect .classKeyword
  let declared ← name comment
  let typeParameters ← typeParameters type
  let heritage ← heritage type
  return .classDeclaration modifiers declared typeParameters heritage (← classMembers type)

def typeAlias [Counter L] : Rule L Node := do
  let (comment, modifiers) ← declarationHead ambientModifiers
  expect .typeKeyword
  let declared ← name comment
  let typeParameters ← typeParameters type
  expect .equalsToken
  let value ← type
  semicolon
  return .typeAliasDeclaration modifiers declared typeParameters value

/-- The value of a member of an enumeration, which is a literal. -/
def enumValue : Rule L Node := do
  match ← literal? with
  | some n => return n
  | none => failHere .enumValueNotConstant

def enumMember : Rule L Node := do
  let comment ← documentationHere
  let k := (← current).kind
  if k = .stringLiteral || k.isMemberName then
    let declared ← propertyName comment
    return .enumMember declared (← optionalAfter .equalsToken enumValue)
  else failHere .enumMemberExpected

def enumDeclaration : Rule L Node := do
  let (comment, modifiers) ← declarationHead enumModifiers
  expect .enumKeyword
  let declared ← name comment
  expect .openBraceToken
  let members ← delimited .closeBraceToken true enumMember
  expect .closeBraceToken
  return .enumDeclaration modifiers declared members

def functionDeclaration [Counter L] : Rule L Node := do
  let (comment, modifiers) ← declarationHead interfaceModifiers
  expect .functionKeyword
  let declared ← name comment
  let typeParameters ← typeParameters type
  let parameters ← parameters type
  let result ← annotatedResult type
  semicolon
  return .functionDeclaration modifiers declared typeParameters parameters result

/-- The keywords that declare variables, with the flags of what they declare. -/
def variableFlags : Kind → Option UInt32
  | .constKeyword => some Flags.constBit
  | .letKeyword => some Flags.letBit
  | .varKeyword => some 0
  | _ => none

def variableDeclaration [Counter L] (comment : Option String) : Rule L Node := do
  let declared ← name comment
  expect .colonToken
  return .variableDeclaration declared (← type)

/-- Variables with commas between them, of which the first takes the documentation. -/
def variableList [Counter L] (comment : Option String) : Rule L (List Node) := do
  let first ← variableDeclaration comment
  let others ← many (optionalAfter .commaToken (variableDeclaration none))
  return first :: others

def variableStatement [Counter L] : Rule L Node := do
  let (comment, modifiers) ← declarationHead ambientModifiers
  match variableFlags (← current).kind with
  | none => failHere .variableExpected
  | some flags =>
    advance
    let declarations ← variableList comment
    semicolon
    return .variableStatement modifiers (.variableDeclarationList flags declarations)

end Ambient.Grammar

import Ambient.Grammar.Signature

namespace Ambient.Grammar

open Rule

variable {L : Type}

variable (type : Rule L Node)

/-- The end of a member: a comma or the end of a statement. -/
def memberEnd : Rule L Unit := do
  if ← accept .commaToken then return else semicolon

def indexMember : Rule L Node := do
  let modifiers ← memberModifiers
  let read ← indexSignature type modifiers
  memberEnd
  return read

def callSignature : Rule L Node := do
  let typeParameters ← typeParameters type
  let parameters ← parameters type
  let result ← annotatedResult type
  memberEnd
  return .callSignature typeParameters parameters result

def constructSignature : Rule L Node := do
  expect .newKeyword
  let typeParameters ← typeParameters type
  let parameters ← parameters type
  let result ← annotatedResult type
  memberEnd
  return .constructSignature typeParameters parameters result

def propertySignature : Rule L Node := do
  let comment ← documentationHere
  let modifiers ← memberModifiers
  let declared ← propertyName comment
  let question ← token? .questionToken
  expect .colonToken
  let value ← type
  memberEnd
  return .propertySignature modifiers declared question value

def methodSignature : Rule L Node := do
  let comment ← documentationHere
  let declared ← propertyName comment
  let question ← token? .questionToken
  let typeParameters ← typeParameters type
  let parameters ← parameters type
  let result ← annotatedResult type
  memberEnd
  return .methodSignature declared question typeParameters parameters result

/-- A member of an interface or an object type. -/
def typeMember : Rule L Node := do
  refuseModifier .modifierOnTypeMember (· = .readonlyKeyword)
  alternatives [indexMember type, callSignature type, constructSignature type,
    propertySignature type, methodSignature type] .typeMemberExpected

/-- Whether the current token ends what stands in braces. -/
def atBlockEnd : Rule L Bool := do
  let k := (← current).kind
  return k = .closeBraceToken || k = .endOfFileToken

/-- Members in braces. -/
def typeMembers : Rule L (List Node) := do
  expect .openBraceToken
  let read ← many do
    if ← atBlockEnd then return none else some <$> typeMember type
  expect .closeBraceToken
  return read

def constructorMember : Rule L Node := do
  let comment ← documentationHere
  let modifiers ← modifiers classMemberModifiers
  expect .constructorKeyword
  let parameters ← parameters type
  semicolon
  return .constructorDeclaration comment modifiers parameters

def classIndexMember : Rule L Node := do
  let modifiers ← modifiers classMemberModifiers
  let read ← indexSignature type modifiers
  semicolon
  return read

/-- A property of a class. An exclamation mark behind its name says nothing in a declaration. -/
def propertyMember : Rule L Node := do
  let comment ← documentationHere
  let modifiers ← modifiers classMemberModifiers
  let declared ← propertyName comment
  let question ← token? .questionToken
  if question.isNone then let _ ← accept .exclamationToken
  expect .colonToken
  let value ← type
  semicolon
  return .propertyDeclaration modifiers declared question value

def methodMember : Rule L Node := do
  let comment ← documentationHere
  let modifiers ← modifiers classMemberModifiers
  let declared ← propertyName comment
  let question ← token? .questionToken
  let typeParameters ← typeParameters type
  let parameters ← parameters type
  let result ← annotatedResult type
  semicolon
  return .methodDeclaration modifiers declared question typeParameters parameters result

/-- A member of a class. -/
def classMember : Rule L Node :=
  alternatives [constructorMember type, classIndexMember type, propertyMember type,
    methodMember type] .classMemberExpected

/-- Members in braces, between which semicolons may stand. -/
def classMembers : Rule L (List Node) := do
  expect .openBraceToken
  let read ← many do
    skipSemicolons
    if ← atBlockEnd then return none else some <$> classMember type
  expect .closeBraceToken
  return read

end Ambient.Grammar

import Ambient.Grammar.Modifier
import Ambient.Grammar.Name

namespace Ambient.Grammar

open Rule

variable {L : Type}

variable (type : Rule L Node)

def typeArguments : Rule L (List Node) := do
  expect .lessThanToken
  if ← atKind .greaterThanToken then failHere .typeArgumentExpected
  else
    let read ← delimited .greaterThanToken false type
    expect .greaterThanToken
    return read

/-- Type arguments on the line of the name before them. -/
def typeArgumentsOnLine : Rule L (Option (List Node)) := do
  if ← atKindOnLine .lessThanToken then some <$> typeArguments type else return none

def typeParameter : Rule L Node := do
  if (← current).kind.isName then
    let declared ← name
    let constraint ← optionalAfter .extendsKeyword type
    let defaultType ← optionalAfter .equalsToken type
    return .typeParameter declared constraint defaultType
  else failHere .typeParameterExpected

def typeParameters : Rule L (Option (List Node)) :=
  optionalAfter .lessThanToken do
    if ← atKind .greaterThanToken then failHere .typeParameterExpected
    else
      let read ← delimited .greaterThanToken true (typeParameter type)
      expect .greaterThanToken
      return read

/-- The name of a parameter, which may be `this`. -/
def parameterName : Rule L Node := do
  if ← accept .thisKeyword then return .identifier "this" none
  else if (← current).kind.isName then name
  else failHere .parameterExpected

def parameter : Rule L Node := do
  let modifiers ← modifiers parameterModifiers
  let dots ← token? .dotDotDotToken
  let declared ← parameterName
  let mark ← current
  let question ← token? .questionToken
  if dots.isSome && question.isSome then fail ⟨mark.start, .restParameterOptional, []⟩
  else
    expect .colonToken
    return .parameter modifiers dots declared question (← type)

/-- Whether a node is a rest parameter. -/
def isRest : Node → Bool
  | .parameter _ (some _) _ _ _ => true
  | _ => false

/-- A parameter in its list: only the last one may be a rest parameter. -/
def listedParameter : Rule L Node := do
  let start := (← current).start
  let read ← parameter type
  if isRest read && !(← atKind .closeParenToken) then fail ⟨start, .restParameterNotLast, []⟩
  else return read

/-- Parameters in parentheses, a comma behind the last one allowed. -/
def parameters : Rule L (Option (List Node)) := do
  expect .openParenToken
  if ← accept .closeParenToken then return none
  else
    let first ← listedParameter type
    let others ← many do
      if ← atKind .closeParenToken then return none
      else
        expect .commaToken
        if ← atKind .closeParenToken then return none else some <$> listedParameter type
    expect .closeParenToken
    return some (first :: others)

/-- What a type predicate is about: `this` or a parameter. -/
def predicateSubject : Rule L Node := do
  if ← accept .thisKeyword then return .thisType else name

/-- Whether a token of kind `k` can be what a type predicate is about. -/
def isSubject (k : Kind) : Bool := k.isName || k = .thisKeyword

/-- Whether the current token is `asserts` with its subject behind it on the same line. -/
def atAssertion : Rule L Bool := do
  if ← atKind .assertsKeyword then
    lookAhead do
      advance
      let t ← current
      return isSubject t.kind && !t.onNewLine
  else return false

/-- Whether the current token is a subject with `is` behind it on the same line. -/
def atPredicate : Rule L Bool := do
  if isSubject (← current).kind then
    lookAhead do
      advance
      atKindOnLine .isKeyword
  else return false

/-- The type that a call gives, which may be a predicate on one of its parameters. -/
def resultType : Rule L Node := do
  if ← atAssertion then
    advance
    let subject ← predicateSubject
    return .typePredicate (some (.token .assertsKeyword)) subject
      (← optionalAfter .isKeyword type)
  else if ← atPredicate then
    let subject ← predicateSubject
    expect .isKeyword
    return .typePredicate none subject (some (← type))
  else type

/-- A colon and the type that a call gives. -/
def annotatedResult : Rule L Node := do
  expect .colonToken
  resultType type

/-- A colon and a type, or the message about what lacks one. -/
def annotatedType (missing : Message) : Rule L Node := do
  if ← accept .colonToken then type else failHere missing

def indexSignature (modifiers : Option (List Node)) : Rule L Node := do
  expect .openBracketToken
  let key ← name
  let keyType ← annotatedType type .indexParameterTypeMissing
  expect .closeBracketToken
  let value ← annotatedType type .indexTypeMissing
  return .indexSignature modifiers [.parameter none none key none keyType] value

/-- A type that a class or an interface builds on. -/
def heritageType [Counter L] : Rule L Node := do
  let expression ← entityName
  if ← atKind .lessThanToken then
    return .expressionWithTypeArguments expression (some (← typeArguments type))
  else return .expressionWithTypeArguments expression none

/-- Reads `extends` or `implements` if one of them stands here. -/
def acceptHeritage : Rule L Bool := do
  if ← accept .extendsKeyword then return true else accept .implementsKeyword

/-- All types behind `extends` and `implements`, which make up one clause whichever keyword they
stand behind. -/
def heritage [Counter L] : Rule L (Option (List Node)) := do
  let lists ← many do
    if ← acceptHeritage then some <$> delimited .openBraceToken false (heritageType type)
    else return none
  let types := lists.flatten
  return if types.isEmpty then none else some [.heritageClause types]

end Ambient.Grammar

import Ambient.Grammar.Member

namespace Ambient.Grammar

open Rule

variable {L : Type}

section

variable (type : Rule L Node)

def typeReference [Counter L] : Rule L Node := do
  let named ← entityName
  return .typeReference named (← typeArgumentsOnLine type)

def typeQuery [Counter L] : Rule L Node := do
  expect .typeOfKeyword
  let named ← entityName
  return .typeQuery named (← typeArgumentsOnLine type)

/-- An arrow and the type that a call gives. -/
def arrowResult : Rule L Node := do
  expect .equalsGreaterThanToken
  resultType type

def functionType : Rule L Node := do
  let typeParameters ← typeParameters type
  let parameters ← parameters type
  return .functionType typeParameters parameters (← arrowResult type)

def constructorType : Rule L Node := do
  let abstractToken ← token? .abstractKeyword
  expect .newKeyword
  let typeParameters ← typeParameters type
  let parameters ← parameters type
  return .constructorType (abstractToken.map ([·])) typeParameters parameters
    (← arrowResult type)

def parenthesizedType : Rule L Node := do
  expect .openParenToken
  let inner ← type
  expect .closeParenToken
  return .parenthesizedType inner

/-- Whether an element of a tuple starts with a label. -/
def atLabel : Rule L Bool := lookAhead do
  let _ ← accept .dotDotDotToken
  if (← current).kind.isMemberName then
    advance
    let _ ← accept .questionToken
    atKind .colonToken
  else return false

def labelledElement : Rule L Node := do
  let dots ← token? .dotDotDotToken
  let label ← anyName
  let question ← token? .questionToken
  expect .colonToken
  return .namedTupleMember dots label question (← type)

def tupleElement : Rule L Node := do
  if ← atLabel then labelledElement type
  else if ← accept .dotDotDotToken then return .restType (← type)
  else
    let element ← type
    if ← accept .questionToken then return .optionalType element else return element

def tupleType : Rule L Node := do
  expect .openBracketToken
  let elements ←
    if ← atKind .closeBracketToken then pure []
    else delimited .closeBracketToken true (tupleElement type)
  expect .closeBracketToken
  return .tupleType elements

/-- Whether a brace opens a mapped type: a name and `in` follow behind a bracket, before which
`readonly` may stand. -/
def atMappedType : Rule L Bool := lookAhead do
  advance
  let sign := (← current).kind
  if sign = .plusToken || sign = .minusToken then advance
  if (sign = .plusToken || sign = .minusToken) && !(← atKind .readonlyKeyword) then return false
  else
    let _ ← accept .readonlyKeyword
    if !(← accept .openBracketToken) then return false
    else if (← current).kind.isName then
      advance
      atKind .inKeyword
    else return false

/-- A token of kind `k` that a sign may stand before; of both the sign is kept. -/
def signed (k : Kind) : Rule L (Option Node) := do
  let sign := (← current).kind
  if sign = .plusToken || sign = .minusToken then
    advance
    expect k
    return some (.token sign)
  else token? k

def mappedType : Rule L Node := do
  expect .openBraceToken
  let readonlyToken ← signed .readonlyKeyword
  expect .openBracketToken
  let key ← name
  expect .inKeyword
  let constraint ← type
  let nameType ← optionalAfter .asKeyword type
  expect .closeBracketToken
  let question ← signed .questionToken
  let value ← optionalAfter .colonToken type
  if !(← accept .semicolonToken) then let _ ← accept .commaToken
  expect .closeBraceToken
  return .mappedType readonlyToken (.typeParameter key (some constraint) none) nameType question
    value

def literalType : Rule L Node := do
  let k := (← current).kind
  if k = .trueKeyword || k = .falseKeyword then
    advance
    return .literalType (.token k)
  else match ← literal? with
    | some n => return .literalType n
    | none => failHere .typeExpected

/-- Whether the token behind the current one is of kind `k`. -/
def nextIs (k : Kind) : Rule L Bool := lookAhead do
  advance
  atKind k

/-- A type that starts with a word or a literal. -/
def wordType [Counter L] (k : Kind) : Rule L Node := do
  if k = .typeOfKeyword then typeQuery type
  else if k = .stringLiteral || k = .numericLiteral || k = .trueKeyword || k = .falseKeyword then
    literalType
  else if k.isName then typeReference type
  else failHere .typeExpected

/-- A type that neither starts with an operator nor ends with brackets. A keyword that is a type
is one only if no dot follows. -/
def primaryType [Counter L] : Rule L Node := do
  let k := (← current).kind
  if k.isKeywordType && !(← nextIs .dotToken) then
    advance
    return .keywordType k
  else match k with
    | .thisKeyword => do
      advance
      return .thisType
    | .openParenToken => alternatives [functionType type, parenthesizedType type] .typeExpected
    | .lessThanToken => functionType type
    | .newKeyword => constructorType type
    | .openBracketToken => tupleType type
    | .openBraceToken => do
      if ← atMappedType then mappedType type else .typeLiteral <$> typeMembers type
    | .abstractKeyword => do
      if ← nextIs .newKeyword then constructorType type else wordType type k
    | k => wordType type k

/-- A type with any number of brackets on its line behind it, each of which nests it one level
deeper: empty ones make an array, others pick a member. -/
def postfixType [Counter L] : Rule L Node := do
  let first ← primaryType type
  closingLevels <| iterate (fun element => do
    if ← atKindOnLine .openBracketToken then
      enterLevel
      advance
      if ← accept .closeBracketToken then return some (.arrayType element)
      else
        let index ← type
        expect .closeBracketToken
        return some (.indexedAccessType element index)
    else return none) first

/-- A type with operators in front of it, each of which nests it one level deeper. -/
def operatorTypeWithin [Counter L] : Budget → Options → State L → Except Failure Node × State L
  | [], o, s => failHere .typeExpected [] o s
  | _ :: budget, o, s =>
    let k := s.stream.current.kind
    if k.isTypeOperator then
      (do advance; return .typeOperator k (← nested (operatorTypeWithin budget)) : Rule L Node) o s
    else postfixType type o s

def operatorType [Counter L] : Rule L Node := bounded (operatorTypeWithin type)

/-- One or more terms with a separator between them; one more may stand before the first. The
terms are joined only if there are at least two. -/
def terms (separator : Kind) (join : List Node → Node) (term : Rule L Node) : Rule L Node := do
  let _ ← accept separator
  let first ← term
  let others ← many (optionalAfter separator term)
  return if others.isEmpty then first else join (first :: others)

def intersectionType [Counter L] : Rule L Node :=
  terms .ampersandToken .intersectionType (operatorType type)

def unionType [Counter L] : Rule L Node := terms .barToken .unionType (intersectionType type)

end

/-- A type. Every type in it uses up one token of the budget. -/
def typeWithin [Counter L] : Budget → Options → State L → Except Failure Node × State L
  | [], o, s => failHere .typeExpected [] o s
  | _ :: budget, o, s => nested (unionType (typeWithin budget)) o s

/-- A type. -/
def type [Counter L] : Rule L Node := bounded typeWithin

end Ambient.Grammar

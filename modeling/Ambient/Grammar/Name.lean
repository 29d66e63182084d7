import Ambient.Grammar.Rule

namespace Ambient.Grammar

open Rule

variable {L : Type}

/-- An identifier whose token is of an allowed kind, with the documentation that belongs to it. -/
def identifierOf (allowed : Kind → Bool) (comment : Option String) : Rule L Node := do
  let t ← current
  if allowed t.kind then
    advance
    return .identifier t.value comment
  else failHere .identifierExpected

/-- A declared name, which is no reserved word. -/
def name (comment : Option String := none) : Rule L Node := identifierOf Kind.isName comment

/-- A name where reserved words may stand too: a member name, the right side of a qualified name
or a name in an import or export. -/
def anyName (comment : Option String := none) : Rule L Node :=
  identifierOf Kind.isMemberName comment

/-- A string or number that is not malformed, or nothing. -/
def literal? : Rule L (Option Node) := do
  let t ← current
  if t.error.isSome then return none
  else if t.kind = .stringLiteral then
    advance
    return some (.stringLiteral t.value)
  else if t.kind = .numericLiteral then
    advance
    return some (.numericLiteral t.value)
  else return none

def stringLiteral : Rule L Node := do
  let t ← current
  if t.kind = .stringLiteral && t.error.isNone then
    advance
    return .stringLiteral t.value
  else failHere .stringExpected

/-- A name with dots in it. Every dot nests it one level deeper. -/
def entityName [Counter L] : Rule L Node := do
  let first ← name
  closingLevels <| iterate (fun left => do
    if ← atKind .dotToken then
      enterLevel
      advance
      return some (.qualifiedName left (← anyName))
    else return none) first

/-- The name of a member: a word, which takes the documentation, a string or a number. -/
def propertyName (comment : Option String) : Rule L Node := do
  if (← current).kind.isMemberName then anyName comment
  else match ← literal? with
    | some n => return n
    | none => failHere .identifierExpected

end Ambient.Grammar

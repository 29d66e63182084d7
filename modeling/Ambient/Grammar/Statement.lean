import Ambient.Grammar.Declaration
import Ambient.Grammar.Import

namespace Ambient.Grammar

open Rule

variable {L : Type}

section

variable (statement : Rule L Node)

/-- Statements up to a token of kind `close` or the end of the text. Semicolons between them are
skipped. -/
def statementsUntil (close : Kind) : Rule L (List Node) :=
  many do
    skipSemicolons
    let k := (← current).kind
    if k = close || k = .endOfFileToken then return none else some <$> statement

def moduleBlock : Rule L Node := do
  expect .openBraceToken
  let statements ← statementsUntil statement .closeBraceToken
  expect .closeBraceToken
  return .moduleBlock statements

/-- The flags of the namespace behind a dot. -/
def innerFlags (flags : UInt32) : UInt32 := Flags.nestedBit ||| (flags &&& Flags.namespaceBit)

/-- A namespace from its name on. Every dot in the name nests the rest one level deeper. -/
def namespaceWithin [Counter L] :
    Budget → UInt32 → Option (List Node) → Option String → Options → State L →
    Except Failure Node × State L
  | [], _, _, _, o, s => failHere .identifierExpected [] o s
  | _ :: budget, flags, modifiers, comment, o, s => (do
    let declared ← name comment
    if ← accept .dotToken then
      let inner ← nested (namespaceWithin budget (innerFlags flags) none none)
      return .moduleDeclaration flags modifiers declared (some inner)
    else
      return .moduleDeclaration flags modifiers declared (some (← moduleBlock statement)) :
      Rule L Node) o s

/-- A module from its quoted name on, of which the body may be left out. -/
def quotedModule (modifiers : Option (List Node)) : Rule L Node := do
  let quoted ← stringLiteral
  if ← atKind .openBraceToken then
    return .moduleDeclaration 0 modifiers quoted (some (← moduleBlock statement))
  else
    semicolon
    return .moduleDeclaration 0 modifiers quoted none

/-- The keywords that declare namespaces and modules, with the flags of what they declare. -/
def moduleFlags : Kind → Option UInt32
  | .namespaceKeyword => some Flags.namespaceBit
  | .moduleKeyword => some 0
  | _ => none

def moduleDeclaration [Counter L] : Rule L Node := do
  let (comment, modifiers) ← declarationHead ambientModifiers
  match moduleFlags (← current).kind with
  | none => failHere .tokenExpected ["namespace"]
  | some flags =>
    advance
    if flags = 0 && (← atKind .stringLiteral) then quotedModule statement modifiers
    else bounded fun budget => namespaceWithin statement budget flags modifiers comment

/-- A block that adds to the global scope. -/
def globalBlock : Rule L Node := do
  let modifiers ← declarationModifiers ambientModifiers
  expect .globalKeyword
  let body ← moduleBlock statement
  return .moduleDeclaration Flags.globalBit modifiers (.identifier "global" none) (some body)

/-- All kinds of statements, in the order in which they are tried. -/
def statementRules [Counter L] : List (Rule L Node) := [
  importDeclaration, namespaceExport, exportDeclaration, interfaceDeclaration, classDeclaration,
  functionDeclaration, typeAlias, enumDeclaration, variableStatement,
  moduleDeclaration statement, globalBlock statement, exportAssignment]

end

/-- A statement. Every statement in it uses up one token of the budget. -/
def statementWithin [Counter L] : Budget → Options → State L → Except Failure Node × State L
  | [], o, s => failHere .statementExpected [] o s
  | _ :: budget, o, s =>
    nested (alternatives (statementRules (statementWithin budget)) .statementExpected) o s

/-- A statement. -/
def statement [Counter L] : Rule L Node := bounded statementWithin

end Ambient.Grammar

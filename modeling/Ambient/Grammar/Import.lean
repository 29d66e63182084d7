import Ambient.Grammar.Name

namespace Ambient.Grammar

open Rule

variable {L : Type}

/-- Whether the current token is `type` and the token behind it satisfies `follows`; then `type` is
no name but says that only types are meant. -/
def acceptTypeOnly (follows : Kind → Bool) : Rule L Bool := do
  let found ← lookAhead do
    if ← accept .typeKeyword then return follows (← current).kind else return false
  if found then advance
  return found

/-- A name in an import or export: whether only a type is meant, the name at the other end if it
is another one, and the name itself. -/
def specifier (make : Bool → Option Node → Node → Node) : Rule L Node := do
  let isTypeOnly ← acceptTypeOnly fun k => k.isMemberName && k ≠ .asKeyword
  let first ← anyName
  match ← optionalAfter .asKeyword anyName with
  | some second => return make isTypeOnly (some first) second
  | none => return make isTypeOnly none first

/-- Names in braces, of which there may be none. -/
def specifiers (make : Bool → Option Node → Node → Node) : Rule L (List Node) := do
  expect .openBraceToken
  if ← accept .closeBraceToken then return []
  else
    let read ← delimited .closeBraceToken true (specifier make)
    expect .closeBraceToken
    return read

/-- What an import binds besides its default: the whole module under one name, or some names. -/
def importBindings : Rule L Node := do
  if ← accept .asteriskToken then
    expect .asKeyword
    return .namespaceImport (← name)
  else return .namedImports (← specifiers .importSpecifier)

/-- Whether `type` in front of a token of kind `k` is no name in an import. -/
def continuesImport (k : Kind) : Bool :=
  k = .openBraceToken || k = .asteriskToken || (k ≠ .fromKeyword && k.isName)

def importClause : Rule L Node := do
  let isTypeOnly ← acceptTypeOnly continuesImport
  let first := (← current).kind
  if first.isName && first ≠ .fromKeyword then
    let default ← name
    let bindings ← optionalAfter .commaToken importBindings
    return .importClause isTypeOnly (some default) bindings
  else return .importClause isTypeOnly none (some (← importBindings))

def importDeclaration : Rule L Node := do
  expect .importKeyword
  if ← atKind .stringLiteral then
    let module ← stringLiteral
    semicolon
    return .importDeclaration none module
  else
    let clause ← importClause
    expect .fromKeyword
    let module ← stringLiteral
    semicolon
    return .importDeclaration (some clause) module

/-- The export of some names, or of all names of a module. -/
def exportDeclaration : Rule L Node := do
  expect .exportKeyword
  let isTypeOnly ← acceptTypeOnly fun k => k = .openBraceToken || k = .asteriskToken
  if ← accept .asteriskToken then
    expect .fromKeyword
    let module ← stringLiteral
    semicolon
    return .exportDeclaration isTypeOnly none (some module)
  else
    let elements ← specifiers .exportSpecifier
    let module ← optionalAfter .fromKeyword stringLiteral
    semicolon
    return .exportDeclaration isTypeOnly (some (.namedExports elements)) module

/-- The export of one name as all that a file exports, or as its default. -/
def exportAssignment [Counter L] : Rule L Node := do
  expect .exportKeyword
  let isExportEquals ← atKind .equalsToken
  if isExportEquals || (← atKind .defaultKeyword) then
    advance
    let expression ← entityName
    semicolon
    return .exportAssignment isExportEquals expression
  else failHere .tokenExpected ["="]

/-- The global name under which a file can be used. -/
def namespaceExport : Rule L Node := do
  expect .exportKeyword
  expect .asKeyword
  expect .namespaceKeyword
  let declared ← name
  semicolon
  return .namespaceExportDeclaration declared

end Ambient.Grammar

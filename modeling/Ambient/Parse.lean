import Ambient.Grammar.Statement

namespace Ambient

/-- What a text as a whole can be. -/
inductive Entry where
  | file | type | typeMember | classMember | statement
deriving DecidableEq

namespace Grammar

open Rule

variable {L : Type}

/-- All statements of a file. -/
def sourceFile [Counter L] : Rule L Node :=
  .sourceFile <$> statementsUntil statement .endOfFileToken

/-- What `r` reads, behind which the text ends. -/
def entire (r : Rule L Node) : Rule L Node := do
  let read ← r
  if ← atKind .endOfFileToken then return read else failHere .unexpectedToken

end Grammar

/-- The rule for a whole text. -/
def Entry.rule {L : Type} [Counter L] : Entry → Rule L Node
  | .file => Grammar.sourceFile
  | .type => Grammar.entire Grammar.type
  | .typeMember => Grammar.entire (Grammar.typeMember Grammar.type)
  | .classMember => Grammar.entire (Grammar.classMember Grammar.type)
  | .statement => Grammar.entire Grammar.statement

/-- The tree of a text. -/
def parse (entry : Entry) (options : Options) (text : String) : Except ParseError Node :=
  match (entry.rule options (⟨Stream.ofText text, 0⟩ : State Nat)).1 with
  | .ok tree => .ok tree
  | .error failure => .error (failure.locate (LineMap.ofText text))

end Ambient

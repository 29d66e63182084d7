import Ambient.Proofs.Ground.Unroll
import Ambient.Proofs.Grammar.Collects

namespace Ambient

namespace Rule

/-- A loop over what an item reads ends if the item reads what it finds. -/
theorem Ends.many {α : Type} {item : Rule Nat (Option α)} [finds : Finds false item]
    (walks : ∀ n x, Walks (.within n) x false x item item) : Ends (collect item) := by
  refine .of_finds (fun read => ⟨fun here h => ?_⟩) fun n x read => Walks.bind_of (walks n x) fun _ => .pure _
  obtain ⟨found, u, h, eq⟩ := h.of_bind
  cases found with
  | none => cases eq
  | some a =>
    cases eq
    exact finds.fewer here h

instance {y : Bool} : Finds y semicolon? where
  fewer {o _ _ _} here h := (nears_semicolon? (o := o) here.here h).2

end Rule

namespace Grammar

open Rule

set_option synthInstance.maxSize 1000

/-- One more name behind a dot. -/
abbrev dotted (left : Node) : Rule Nat (Option Node) := do
  if ← atKind .dotToken then
    enterLevel
    advance
    return some (.qualifiedName left (← anyName))
  else return none

theorem ends_dotted : Ends dotted := .of_finds inferInstance inferInstance

/-- One more modifier. -/
abbrev modifier (allowed seen : List Kind) : Rule Nat (Option (List Kind)) := do
  if ← atModifier allowed.contains then
    let k := (← current).kind
    if seen.contains k then failAtKeyword .modifierRepeated
    else
      advance
      return some (seen ++ [k])
  else return none

theorem ends_modifier {allowed : List Kind} [Holds (allowed.all Kind.isFirm)] :
    Ends (modifier allowed) := .of_finds inferInstance inferInstance

/-- One more element behind a comma. -/
abbrev further {α : Type} (close : Kind) (trailing : Bool) (element : Rule Nat α) :
    Rule Nat (Option α) := do
  if ← accept .commaToken then
    if trailing && (← atKind close) then return none else some <$> element
  else return none

theorem ends_further {α : Type} {close : Kind} {trailing : Bool} {element : Rule Nat α}
    (walks : ∀ (G : Ground) [G.Lawful], Walks G true false true element element) :
    Ends (collect (further close trailing element)) := .many inferInstance

theorem ends_semicolon? : Ends (collect semicolon?) := .many inferInstance

/-- One more parameter behind a comma. -/
abbrev furtherParameter (type : Rule Nat Node) : Rule Nat (Option Node) := do
  if ← atKind .closeParenToken then return none
  else
    expect .commaToken
    if ← atKind .closeParenToken then return none else some <$> listedParameter type

theorem ends_furtherParameter : Ends (collect (furtherParameter type)) := .many inferInstance

/-- The types behind one more `extends` or `implements`. -/
abbrev heritageList (type : Rule Nat Node) : Rule Nat (Option (List Node)) := do
  if ← acceptHeritage then some <$> delimited .openBraceToken false (heritageType type)
  else return none

theorem ends_heritageList : Ends (collect (heritageList type)) := .many inferInstance

/-- One more member of an interface or an object type. -/
abbrev furtherTypeMember (type : Rule Nat Node) : Rule Nat (Option Node) := do
  if ← atBlockEnd then return none else some <$> typeMember type

theorem ends_furtherTypeMember : Ends (collect (furtherTypeMember type)) := .many inferInstance

/-- One more member of a class. -/
abbrev furtherClassMember (type : Rule Nat Node) : Rule Nat (Option Node) := do
  skipSemicolons
  if ← atBlockEnd then return none else some <$> classMember type

theorem ends_furtherClassMember : Ends (collect (furtherClassMember type)) := .many inferInstance

/-- One more pair of brackets behind a type. -/
abbrev bracketed (type : Rule Nat Node) (element : Node) : Rule Nat (Option Node) := do
  if ← atKindOnLine .openBracketToken then
    enterLevel
    advance
    if ← accept .closeBracketToken then return some (.arrayType element)
    else
      let index ← type
      expect .closeBracketToken
      return some (.indexedAccessType element index)
  else return none

theorem ends_bracketed : Ends (bracketed type) := .of_finds inferInstance inferInstance

theorem ends_term {separator : Kind} [Holds separator.isFirm] {term : Rule Nat Node}
    (walks : ∀ (G : Ground) [G.Lawful], Walks G true false true term term) :
    Ends (collect (optionalAfter separator term)) := by
  unfold optionalAfter
  exact .many inferInstance

theorem ends_variable :
    Ends (collect (optionalAfter .commaToken (variableDeclaration none))) := by
  unfold optionalAfter
  exact .many inferInstance

/-- One more statement. -/
abbrev furtherStatement (statement : Rule Nat Node) (close : Kind) : Rule Nat (Option Node) := do
  skipSemicolons
  let k := (← current).kind
  if k = close || k = .endOfFileToken then return none else some <$> statement

theorem ends_furtherStatement {close : Kind} :
    Ends (collect (furtherStatement statement close)) := .many inferInstance

end Grammar

end Ambient

import Ambient.Grammar.Rule

namespace Ambient.Grammar

open Rule

variable {L : Type}

/-- The modifiers of interfaces and functions. -/
def interfaceModifiers : List Kind := [.exportKeyword, .defaultKeyword, .declareKeyword]

def classModifiers : List Kind :=
  [.exportKeyword, .defaultKeyword, .declareKeyword, .abstractKeyword]

def enumModifiers : List Kind := [.exportKeyword, .declareKeyword, .constKeyword]

/-- The modifiers of type aliases, variables and namespaces. -/
def ambientModifiers : List Kind := [.exportKeyword, .declareKeyword]

def classMemberModifiers : List Kind := [
  .publicKeyword, .privateKeyword, .protectedKeyword, .staticKeyword, .readonlyKeyword,
  .abstractKeyword, .overrideKeyword, .declareKeyword, .accessorKeyword]

def typeMemberModifiers : List Kind := [.readonlyKeyword]

def parameterModifiers : List Kind := [
  .publicKeyword, .privateKeyword, .protectedKeyword, .readonlyKeyword, .overrideKeyword]

/-- Whether a token of kind `k` can stand behind a modifier. -/
def canFollowModifier (k : Kind) : Bool :=
  [.openBracketToken, .openBraceToken, .asteriskToken, .dotDotDotToken, .stringLiteral,
    .numericLiteral].contains k || k.isMemberName

/-- Whether the current token is a modifier, provided that its kind is one of `kinds`. It is one only
where something that can be modified follows: `readonly: boolean` declares a property. -/
def atModifier (kinds : Kind → Bool) : Rule L Bool := do
  if kinds (← current).kind then
    lookAhead do
      advance
      return canFollowModifier (← current).kind
  else return false

/-- Fails at the current token with a message about its keyword. -/
def failAtKeyword {α : Type} (message : Message) : Rule L α := do
  failHere message [(← current).kind.keywordText.getD ""]

/-- Allowed modifiers, in the order in which they are written and each at most once. -/
def modifiers (allowed : List Kind) : Rule L (Option (List Node)) := do
  let kinds ← iterate (fun seen => do
    if ← atModifier allowed.contains then
      let k := (← current).kind
      if seen.contains k then failAtKeyword .modifierRepeated
      else
        advance
        return some (seen ++ [k])
    else return none) []
  return if kinds.isEmpty then none else some (kinds.map .token)

/-- Fails if a modifier stands here, other than those of an exempted kind. -/
def refuseModifier (message : Message) (exempted : Kind → Bool) : Rule L Unit := do
  if ← atModifier fun k => k.isModifier && !exempted k then failAtKeyword message

/-- The modifiers of a declaration. `const` is left alone, since it also starts variables. -/
def declarationModifiers (allowed : List Kind) : Rule L (Option (List Node)) := do
  let read ← modifiers allowed
  refuseModifier .modifierMisplaced (· = .constKeyword)
  return read

/-- The modifiers of a member of an interface or an object type. -/
def memberModifiers : Rule L (Option (List Node)) := do
  let read ← modifiers typeMemberModifiers
  refuseModifier .modifierOnTypeMember fun _ => false
  return read

end Ambient.Grammar

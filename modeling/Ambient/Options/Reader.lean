import Ambient.Interchange.Members
import Ambient.Json.Skip
import Ambient.Options

namespace Ambient.Options

/-- Why a text holds no options. -/
inductive ReadError where
  /-- It is no JSON document. -/
  | malformed
  | invalid (issue : Issue)

/-- The value at the start of a text. Of an array or an object only its first bracket is read. -/
def value? (cs : List Char) : Option (Json × List Char) :=
  match Json.skipBlanks cs with
  | '[' :: rest => some (.array [], rest)
  | '\x7b' :: rest => some (.object [], rest)
  | rest => Json.readValue? 1 rest

/-- The value of an option, which may be null. -/
def setting {α : Type} (read : Reader α) (cs : List Char) :
    Except ReadError (Option α × List Char) :=
  match value? cs with
  | none => .error .malformed
  | some (v, rest) =>
    match Reader.nullable read v with
    | .ok a => .ok (a, rest)
    | .error issue => .error (.invalid issue)

def depthSetting : List Char → Except ReadError (Option Nat × List Char) :=
  setting (Reader.word 32)

def commentsSetting : List Char → Except ReadError (Option Bool × List Char) :=
  setting Reader.flag

/-- Goes on to the item at a given place of an array. -/
def toItem (place : Nat) (cs : List Char) : Except ReadError (List Char) :=
  match Json.skipBlanks cs with
  | ']' :: _ =>
    .error (.invalid (.wrongLength place "struct ParserOptions with 2 elements"))
  | [] => .error .malformed
  | ',' :: rest =>
    if place = 0 then .ok (',' :: rest)
    else match Json.skipBlanks rest with
      | ']' :: _ => .error .malformed
      | rest => .ok rest
  | rest => if place = 0 then .ok rest else .error .malformed

/-- Options from behind the opening bracket of an array on. -/
def readItems (cs : List Char) : Except ReadError (Options × List Char) := do
  let (depth, cs) ← depthSetting (← toItem 0 cs)
  let (comments, cs) ← commentsSetting (← toItem 1 cs)
  match Json.skipBlanks cs with
  | ']' :: rest => return (⟨depth, comments⟩, rest)
  | _ => throw .malformed

/-- The options that members of an object have set, if only to null. -/
structure Settings where
  maxDepth : Option (Option Nat) := none
  attachComments : Option (Option Bool) := none

def Settings.toOptions (s : Settings) : Options := ⟨s.maxDepth.join, s.attachComments.join⟩

/-- What follows a colon. -/
def skipColon (cs : List Char) : Except ReadError (List Char) :=
  match Json.skipBlanks cs with
  | ':' :: rest => .ok rest
  | _ => .error .malformed

/-- A member with a given key, from behind the key on. An option may not be set twice, and members
with other keys are passed over. -/
def readMember (s : Settings) (key : String) (cs : List Char) :
    Except ReadError (Settings × List Char) := do
  if key = "maxDepth" then
    if s.maxDepth.isSome then throw (.invalid (.repeatedField key))
    let (v, rest) ← depthSetting (← skipColon cs)
    return ({ s with maxDepth := some v }, rest)
  else if key = "attachComments" then
    if s.attachComments.isSome then throw (.invalid (.repeatedField key))
    let (v, rest) ← commentsSetting (← skipColon cs)
    return ({ s with attachComments := some v }, rest)
  else
    let cs ← skipColon cs
    match Json.skipValue? (cs.length + 1) cs with
    | some rest => return (s, rest)
    | none => throw .malformed

/-- A member from its key on. -/
def readKeyed (s : Settings) (cs : List Char) : Except ReadError (Settings × List Char) :=
  match cs with
  | '"' :: rest =>
    match Json.readChars? [] rest with
    | some (key, rest) => readMember s key rest
    | none => .error .malformed
  | _ => .error .malformed

/-- Further members up to the end of an object, of which there are at most `bound`. -/
def readMembers : Nat → Settings → List Char → Except ReadError (Options × List Char)
  | 0, _, _ => .error .malformed
  | bound + 1, s, cs =>
    match Json.skipBlanks cs with
    | '\x7d' :: rest => .ok (s.toOptions, rest)
    | ',' :: rest =>
      match readKeyed s (Json.skipBlanks rest) with
      | .ok (s, rest) => readMembers bound s rest
      | .error e => .error e
    | _ => .error .malformed

/-- Options from behind the opening brace of an object on. -/
def readObject (cs : List Char) : Except ReadError (Options × List Char) :=
  match Json.skipBlanks cs with
  | '\x7d' :: rest => .ok ({}, rest)
  | cs => do
    let (s, rest) ← readKeyed {} cs
    readMembers (rest.length + 1) s rest

/-- The options that a text holds. It is read from its start on, and the first problem met is the one
reported. -/
def parse (text : String) : Except ReadError Options := do
  let cs := Json.skipBlanks text.toList
  let (options, rest) ← match cs with
    | '[' :: rest => readItems rest
    | '\x7b' :: rest => readObject rest
    | cs => match value? cs with
      | some (v, _) => .error (.invalid (.wrongType v "struct ParserOptions"))
      | none => .error .malformed
  if (Json.skipBlanks rest).isEmpty then return options else throw .malformed

end Ambient.Options

import Ambient.Failure
import Ambient.Grammar.Stream
import Ambient.Lexeme.Documentation
import Ambient.Options
import Ambient.Tree.Node

namespace Ambient

/-- The failure at a token. What is wrong with a malformed token comes before any other
message. -/
def Lexeme.failure (t : Lexeme) (message : Message) (arguments : List String) : Failure :=
  match t.error with
  | some lexical => ⟨t.start, lexical, []⟩
  | none => ⟨t.start, message, arguments⟩

/-- What the open levels are counted in. A parse counts them in numbers; another counter can keep more
than their number. -/
class Counter (L : Type) where
  /-- How many levels are open. -/
  count : L → Nat
  enter : L → L
  leave : L → L
  /-- The levels of `before`, gone back to from `now`. -/
  back (before now : L) : L

instance : Counter Nat where
  count n := n
  enter n := n + 1
  leave n := n - 1
  back before _ := before

/-- What a rule works on. -/
structure State (L : Type) where
  stream : Stream
  /-- The levels that are open. -/
  depth : L
deriving DecidableEq

/-- Reads tokens and gives what it has read, or fails. Either way it also gives the state in which it
stopped, so a rule that fails says how far it came. -/
def Rule (L α : Type) : Type := Options → State L → Except Failure α × State L

namespace Rule

variable {L α β : Type}

instance : Monad (Rule L) where
  pure a := fun _ s => (.ok a, s)
  bind r f := fun o s =>
    match r o s with
    | (.ok a, t) => f a o t
    | (.error e, t) => (.error e, t)

def fail (f : Failure) : Rule L α := fun _ s => (.error f, s)

/-- The token that comes next. -/
def current : Rule L Lexeme := fun _ s => (.ok s.stream.current, s)

def advance : Rule L Unit := fun _ s => (.ok (), { s with stream := s.stream.next })

/-- Fails at the current token. -/
def failHere (message : Message) (arguments : List String := []) : Rule L α := fun _ s =>
  (.error (s.stream.current.failure message arguments), s)

/-- Whether the current token is of kind `k`. -/
def atKind (k : Kind) : Rule L Bool := do return (← current).kind = k

/-- Whether the current token is of kind `k` and on the line of the token before. -/
def atKindOnLine (k : Kind) : Rule L Bool := do
  let t ← current
  return t.kind = k && !t.onNewLine

/-- Reads a token of kind `k` if there is one. -/
def accept (k : Kind) : Rule L Bool := do
  if ← atKind k then
    advance
    return true
  else return false

/-- Reads a token of kind `k` if there is one, as a node. -/
def token? (k : Kind) : Rule L (Option Node) := do
  return if ← accept k then some (.token k) else none

/-- Reads a token of kind `k`. -/
def expect (k : Kind) : Rule L Unit := do
  if ← atKind k then advance else failHere .tokenExpected [k.tokenText.getD "token"]

/-- Reads what `r` reads behind a token of kind `k`, or nothing if there is no such token. -/
def optionalAfter (k : Kind) (r : Rule L α) : Rule L (Option α) := do
  if ← accept k then some <$> r else return none

/-- The end of a statement or member: a semicolon, or nothing before a line break, a closing brace
or the end of the text. -/
def semicolon : Rule L Unit := do
  let t ← current
  if t.kind = .semicolonToken then advance
  else if t.kind = .closeBraceToken || t.kind = .endOfFileToken || t.onNewLine then return
  else failHere .tokenExpected [";"]

/-- The documentation of what starts at the current token. -/
def documentationHere : Rule L (Option String) := fun o s =>
  (.ok (if o.keepsComments then s.stream.current.comment.bind fun c => documentation c.text
    else none), s)

/-- Runs a rule and goes back to where it started. -/
def lookAhead (r : Rule L α) : Rule L α := fun o s =>
  let (a, t) := r o s
  (a, { t with stream := s.stream })

/-- Of the failures of some rules the first one that got furthest, and whether another one that
got as far says something else. -/
structure Furthest where
  failure : Failure
  contested : Bool

namespace Furthest

/-- Takes in the failure of one more rule. -/
def add (best : Option Furthest) (f : Failure) : Furthest :=
  match best with
  | none => ⟨f, false⟩
  | some b =>
    if f.position < b.failure.position then b
    else if f.position = b.failure.position then
      { b with contested := b.contested || !f.agrees b.failure }
    else ⟨f, false⟩

/-- What is reported: where rules differ none of them owns the input, so `fallback` is. -/
def report (b : Furthest) (fallback : Message) : Failure :=
  if b.contested then ⟨b.failure.position, fallback, []⟩ else b.failure

end Furthest

/-- Tries the rules that are left, given the failures so far. -/
def alternativesFrom (best : Option Furthest) (fallback : Message) : List (Rule L α) → Rule L α
  | [] => match best with
    | some b => fail (b.report fallback)
    | none => failHere fallback
  | r :: rules => fun o s =>
    match r o s with
    | (.ok a, t) => (.ok a, t)
    | (.error e, t) =>
      alternativesFrom (some (Furthest.add best e)) fallback rules o { t with stream := s.stream }

/-- The first of some rules that succeeds, each tried from the same token. -/
def alternatives (rules : List (Rule L α)) (fallback : Message) : Rule L α :=
  alternativesFrom none fallback rules

section

variable [Counter L]

/-- Opens a level, if there may be one more. -/
def enterLevel : Rule L Unit := fun o s =>
  if o.depthLimit ≤ Counter.count s.depth then (.error (s.stream.current.failure .typeExpected []), s)
  else (.ok (), { s with depth := Counter.enter s.depth })

/-- Runs a rule and closes one level. -/
def leavingLevel (r : Rule L α) : Rule L α := fun o s =>
  let (a, t) := r o s
  (a, { t with depth := Counter.leave t.depth })

/-- Runs a rule and goes back to the levels in front of it. -/
def closingLevels (r : Rule L α) : Rule L α := fun o s =>
  let (a, t) := r o s
  (a, { t with depth := Counter.back s.depth t.depth })

/-- Runs a rule one level deeper. -/
def nested (r : Rule L α) : Rule L α := do
  enterLevel
  leavingLevel r

end

/-- What bounds a recursion: every call uses up one token. Only the number of tokens matters; being
a list, a budget need not be counted. -/
abbrev Budget := List Lexeme

/-- Runs a rule that needs a budget. Since a rule reads a token before it calls itself, the tokens
that are left are enough. -/
def bounded (r : Budget → Rule L α) : Rule L α := fun o s => r s.stream.toList o s

/-- Repeats a step within a budget, as long as it gives a new value. -/
def iterateWithin (step : β → Rule L (Option β)) :
    Budget → β → Options → State L → Except Failure β × State L
  | [], b, _, s => (.ok b, s)
  | _ :: budget, b, o, s =>
    match step b o s with
    | (.ok (some b'), t) => iterateWithin step budget b' o t
    | (.ok none, t) => (.ok b, t)
    | (.error e, t) => (.error e, t)

/-- Repeats a step as long as it gives a new value, for which it reads a token. -/
def iterate (step : β → Rule L (Option β)) (b : β) : Rule L β :=
  bounded fun budget => iterateWithin step budget b

/-- All that `item` reads, until it reads nothing. -/
def many (item : Rule L (Option α)) : Rule L (List α) :=
  List.reverse <$> iterate (fun read => do return (← item).map (· :: read)) []

/-- One or more elements with commas between them. The closing token is left for the caller; a
comma before it may end the list if `trailing` is set. -/
def delimited (close : Kind) (trailing : Bool) (element : Rule L α) : Rule L (List α) := do
  let first ← element
  let others ← many do
    if ← accept .commaToken then
      if trailing && (← atKind close) then return none else some <$> element
    else return none
  return first :: others

/-- Skips semicolons. -/
def skipSemicolons : Rule L Unit := do
  let _ ← many do return if ← accept .semicolonToken then some () else none

end Rule

end Ambient

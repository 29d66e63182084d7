import Ambient.Interchange.Issue

namespace Ambient

/-- Makes something of a value. -/
abbrev Reader (α : Type) := Json → Except Issue α

namespace Reader

def text : Reader String
  | .string s => .ok s
  | v => .error (.wrongType v "a string")

def flag : Reader Bool
  | .bool b => .ok b
  | v => .error (.wrongType v "a boolean")

/-- A natural number of at most `bits` bits. -/
def word (bits : Nat) : Reader Nat
  | .number (.integer n) =>
    if 0 ≤ n && n.toNat < Nat.pow 2 bits then .ok n.toNat
    else .error (.outOfRange n ("u" ++ toString bits))
  | v => .error (.wrongType v ("u" ++ toString bits))

/-- The bits of some flags. -/
def bits : Reader UInt32 := fun v => do return UInt32.ofNat (← word 32 v)

/-- A kind, by its number. -/
def kind : Reader Kind := fun v => do
  let code ← word 16 v
  match Kind.ofCode? code with
  | some k => return k
  | none => throw (.unknownKind code)

def list {α : Type} (read : Reader α) : Reader (List α)
  | .array items => items.mapM read
  | v => .error (.wrongType v "a sequence")

/-- A value that may be null. -/
def nullable {α : Type} (read : Reader α) : Reader (Option α)
  | .null => .ok none
  | v => some <$> read v

end Reader

/-- Why the members of an object cannot be read. -/
inductive Fault where
  | invalid (key : String) (issue : Issue)
  | missing (key : String)

namespace Fault

/-- Which of two faults is reported: what is invalid before what is missing, and of two invalid
members the one with the least key. -/
def first : Fault → Fault → Fault
  | .invalid k i, .invalid l j => if l < k then .invalid l j else .invalid k i
  | .invalid k i, .missing _ => .invalid k i
  | .missing _, .invalid l j => .invalid l j
  | .missing k, .missing _ => .missing k

def issue : Fault → Issue
  | .invalid _ i => i
  | .missing key => .missingField key

end Fault

/-- Describes some members of a node, in order, and what is made of them. They can be read from an
object by their keys, and from an array by their places. -/
structure Members (α : Type) where
  /-- How many members there are. -/
  width : Nat
  ofObject : List (String × Json) → Except Fault α
  /-- Reads the members from the items of an array from a given place on, and gives the items that
  are left. The text says what the whole array should hold. -/
  ofArray : String → Nat → List Json → Except Issue (α × List Json)

namespace Members

variable {α β : Type}

/-- A member with a given key, and its value when it is absent. -/
def field (key : String) (absent : Option α) (read : Reader α) : Members α where
  width := 1
  ofObject members :=
    match members.lookup key with
    | some v => (read v).mapError (.invalid key)
    | none =>
      match absent with
      | some a => .ok a
      | none => .error (.missing key)
  ofArray expected place items :=
    match items with
    | v :: rest => do return (← read v, rest)
    | [] =>
      match absent with
      | some a => .ok (a, [])
      | none => .error (.wrongLength place expected)

/-- A member that must be present. -/
def required (key : String) (read : Reader α) : Members α := field key none read

/-- A member that may be absent or null. -/
def optional (key : String) (read : Reader α) : Members (Option α) :=
  field key (some none) (Reader.nullable read)

/-- A member with a value of its own when it is absent. -/
def defaulted (key : String) (value : α) (read : Reader α) : Members α :=
  field key (some value) read

/-- No members. -/
protected def pure (a : α) : Members α where
  width := 0
  ofObject _ := .ok a
  ofArray _ _ items := .ok (a, items)

/-- The members of one description and then those of another. -/
protected def seq (f : Members (α → β)) (x : Members α) : Members β where
  width := f.width + x.width
  ofObject members :=
    match f.ofObject members, x.ofObject members with
    | .ok g, .ok a => .ok (g a)
    | .ok _, .error e => .error e
    | .error d, .ok _ => .error d
    | .error d, .error e => .error (d.first e)
  ofArray expected place items := do
    let (g, rest) ← f.ofArray expected place items
    let (a, rest) ← x.ofArray expected (place + f.width) rest
    return (g a, rest)

instance : Applicative Members where
  pure := Members.pure
  seq f x := Members.seq f (x ())

/-- What an array with all members holds, in words. -/
def describe (m : Members α) (name : String) : String :=
  "struct " ++ name ++ " with " ++ toString m.width ++
    if m.width = 1 then " element" else " elements"

/-- Reads a node of the named shape from an object or an array. -/
def read (m : Members α) (name : String) : Reader α
  | .object members => (m.ofObject members).mapError Fault.issue
  | .array items =>
    match m.ofArray (m.describe name) 0 items with
    | .error issue => .error issue
    | .ok (a, []) => .ok a
    | .ok (_, _ :: _) => .error (.wrongLength items.length "fewer elements in array")
  | v => .error (.wrongType v ("struct " ++ name))

end Members

end Ambient

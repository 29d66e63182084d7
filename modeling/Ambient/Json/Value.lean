import Ambient.Decimal.Notation
import Ambient.Text.Quoted

namespace Ambient

/-- A number of a JSON document: an integer if it is written without fraction and exponent and fits
into 64 bits, signed or unsigned, and otherwise a double, kept by its bits. -/
inductive JsonNumber where
  | integer (value : Int)
  | double (bits : UInt64)
deriving DecidableEq

/-- A JSON value. The members of an object are in no fixed order; see `Json.canonical`. -/
inductive Json where
  | null
  | bool (value : Bool)
  | number (value : JsonNumber)
  | string (value : String)
  | array (items : List Json)
  | object (members : List (String × Json))
deriving Inhabited

namespace Json

mutual

def decEq : (a b : Json) → Decidable (a = b)
  | .null, b => match b with
    | .null => isTrue rfl
    | .bool _ | .number _ | .string _ | .array _ | .object _ => isFalse nofun
  | .bool x, b => match b with
    | .bool y => if h : x = y then isTrue (h ▸ rfl) else isFalse fun e => h (Json.bool.inj e)
    | .null | .number _ | .string _ | .array _ | .object _ => isFalse nofun
  | .number x, b => match b with
    | .number y => if h : x = y then isTrue (h ▸ rfl) else isFalse fun e => h (Json.number.inj e)
    | .null | .bool _ | .string _ | .array _ | .object _ => isFalse nofun
  | .string x, b => match b with
    | .string y => if h : x = y then isTrue (h ▸ rfl) else isFalse fun e => h (Json.string.inj e)
    | .null | .bool _ | .number _ | .array _ | .object _ => isFalse nofun
  | .array xs, b => match b with
    | .array ys => match decEqItems xs ys with
      | isTrue h => isTrue (h ▸ rfl)
      | isFalse h => isFalse fun e => h (Json.array.inj e)
    | .null | .bool _ | .number _ | .string _ | .object _ => isFalse nofun
  | .object xs, b => match b with
    | .object ys => match decEqMembers xs ys with
      | isTrue h => isTrue (h ▸ rfl)
      | isFalse h => isFalse fun e => h (Json.object.inj e)
    | .null | .bool _ | .number _ | .string _ | .array _ => isFalse nofun

def decEqItems : (xs ys : List Json) → Decidable (xs = ys)
  | [], [] => isTrue rfl
  | [], _ :: _ => isFalse nofun
  | _ :: _, [] => isFalse nofun
  | x :: xs, y :: ys => match decEq x y with
    | isFalse h => isFalse fun e => h (List.cons.inj e).1
    | isTrue h => match decEqItems xs ys with
      | isFalse g => isFalse fun e => g (List.cons.inj e).2
      | isTrue g => isTrue (h ▸ g ▸ rfl)

def decEqMembers : (xs ys : List (String × Json)) → Decidable (xs = ys)
  | [], [] => isTrue rfl
  | [], _ :: _ => isFalse nofun
  | _ :: _, [] => isFalse nofun
  | (k, x) :: xs, (l, y) :: ys =>
    if hk : k = l then
      match decEq x y with
      | isFalse h => isFalse fun e => h (Prod.mk.inj (List.cons.inj e).1).2
      | isTrue h => match decEqMembers xs ys with
        | isFalse g => isFalse fun e => g (List.cons.inj e).2
        | isTrue g => isTrue (hk ▸ h ▸ g ▸ rfl)
    else isFalse fun e => hk (Prod.mk.inj (List.cons.inj e).1).1

end

instance : DecidableEq Json := decEq

def nat (n : Nat) : Json := .number (.integer n)

/-- The members in the order of their keys; of members with one key the last one stays. -/
def insertMember (key : String) (value : Json) : List (String × Json) → List (String × Json)
  | [] => [(key, value)]
  | (k, v) :: rest =>
    if key < k then (key, value) :: (k, v) :: rest
    else if key = k then (key, value) :: rest
    else (k, v) :: insertMember key value rest

mutual

/-- The same value with the members of every object in the order of their keys, each key once. -/
def canonical : Json → Json
  | .array items => .array (canonicalItems items)
  | .object members => .object (canonicalMembers [] members)
  | value => value

def canonicalItems : List Json → List Json
  | [] => []
  | item :: items => item.canonical :: canonicalItems items

/-- Adds members to those that are in order already. -/
def canonicalMembers (ordered : List (String × Json)) :
    List (String × Json) → List (String × Json)
  | [] => ordered
  | (key, value) :: rest => canonicalMembers (insertMember key value.canonical ordered) rest

end

/-- The member of an object with a given key. -/
def member? (key : String) : Json → Option Json
  | .object members => members.lookup key
  | _ => none

/-- How a message names a value that it did not expect. -/
def describe : Json → String
  | .null => "null"
  | .bool true => "boolean `true`"
  | .bool false => "boolean `false`"
  | .number (.integer n) => "integer `" ++ toString n ++ "`"
  | .number (.double bits) => "floating point `" ++ Decimal.render bits ++ "`"
  | .string s => "string " ++ Quoted.encode s
  | .array _ => "sequence"
  | .object _ => "map"

mutual

/-- How many arrays and objects lie inside each other at most. -/
def depth : Json → Nat
  | .array items => depthItems items + 1
  | .object members => depthMembers members + 1
  | .null | .bool _ | .number _ | .string _ => 0

def depthItems : List Json → Nat
  | [] => 0
  | item :: items => max item.depth (depthItems items)

def depthMembers : List (String × Json) → Nat
  | [] => 0
  | (_, value) :: members => max value.depth (depthMembers members)

end

end Json

end Ambient

import Ambient.Json.Number

namespace Ambient.Json

def isBlank (c : Char) : Bool := c = ' ' || c = '\n' || c = '\t' || c = '\r'

def skipBlanks (cs : List Char) : List Char := cs.dropWhile isBlank

def hexValue? (c : Char) : Option Nat :=
  if c.isDigit then some (c.toNat - '0'.toNat)
  else if 'a' ≤ c && c ≤ 'f' then some (c.toNat - 'a'.toNat + 10)
  else if 'A' ≤ c && c ≤ 'F' then some (c.toNat - 'A'.toNat + 10)
  else none

/-- The code unit that four hexadecimal digits stand for. -/
def unit? (a b c d : Char) : Option Nat := do
  return (((← hexValue? a) * 16 + (← hexValue? b)) * 16 + (← hexValue? c)) * 16 + (← hexValue? d)

def isHighSurrogate (n : Nat) : Bool := 0xd800 ≤ n && n ≤ 0xdbff

def isLowSurrogate (n : Nat) : Bool := 0xdc00 ≤ n && n ≤ 0xdfff

/-- The character of a pair of surrogates. -/
def pairChar (high low : Nat) : Char :=
  Char.ofNat (0x10000 + (high - 0xd800) * 0x400 + (low - 0xdc00))

/-- The character that a backslash and one letter stand for. -/
def escaped? (c : Char) : Option Char :=
  [('"', '"'), ('\\', '\\'), ('/', '/'), ('b', '\x08'), ('f', '\x0c'), ('n', '\n'), ('r', '\r'),
    ('t', '\t')].lookup c

/-- The rest of a string up to its closing quote, behind the characters `before` in reverse
order. -/
def readChars? (before : List Char) : List Char → Option (String × List Char)
  | '"' :: cs => some (String.ofList before.reverse, cs)
  | '\\' :: 'u' :: a :: b :: c :: d :: cs =>
    match unit? a b c d with
    | none => none
    | some n =>
      if isHighSurrogate n then
        match cs with
        | '\\' :: 'u' :: e :: f :: g :: h :: cs =>
          match unit? e f g h with
          | none => none
          | some m => if isLowSurrogate m then readChars? (pairChar n m :: before) cs else none
        | _ => none
      else if isLowSurrogate n then none
      else readChars? (Char.ofNat n :: before) cs
  | '\\' :: e :: cs =>
    match escaped? e with
    | none => none
    | some c => readChars? (c :: before) cs
  | c :: cs => if c.toNat < 0x20 || c = '\\' then none else readChars? (c :: before) cs
  | [] => none

mutual

/-- A value; `fuel` bounds the number of nested calls. -/
def readValue? : Nat → List Char → Option (Json × List Char)
  | 0, _ => none
  | fuel + 1, cs =>
    match skipBlanks cs with
    | 'n' :: 'u' :: 'l' :: 'l' :: rest => some (.null, rest)
    | 't' :: 'r' :: 'u' :: 'e' :: rest => some (.bool true, rest)
    | 'f' :: 'a' :: 'l' :: 's' :: 'e' :: rest => some (.bool false, rest)
    | '"' :: rest => (readChars? [] rest).map fun (s, rest) => (.string s, rest)
    | '[' :: rest =>
      match skipBlanks rest with
      | ']' :: rest => some (.array [], rest)
      | rest => readItems? [] fuel rest
    | '\x7b' :: rest =>
      match skipBlanks rest with
      | '\x7d' :: rest => some (.object [], rest)
      | rest => readMembers? [] fuel rest
    | rest => (JsonNumber.read? rest).map fun (n, rest) => (.number n, rest)

/-- Items up to the end of an array, behind the items `before` in reverse order. -/
def readItems? (before : List Json) : Nat → List Char → Option (Json × List Char)
  | 0, _ => none
  | fuel + 1, cs =>
    match readValue? fuel cs with
    | none => none
    | some (item, rest) =>
      match skipBlanks rest with
      | ',' :: rest => readItems? (item :: before) fuel rest
      | ']' :: rest => some (.array (item :: before).reverse, rest)
      | _ => none

/-- Members up to the end of an object, added to those before. -/
def readMembers? (before : List (String × Json)) : Nat → List Char → Option (Json × List Char)
  | 0, _ => none
  | fuel + 1, cs =>
    match skipBlanks cs with
    | '"' :: rest =>
      match readChars? [] rest with
      | none => none
      | some (key, rest) =>
        match skipBlanks rest with
        | ':' :: rest =>
          match readValue? fuel rest with
          | none => none
          | some (value, rest) =>
            match skipBlanks rest with
            | ',' :: rest => readMembers? (insertMember key value before) fuel rest
            | '\x7d' :: rest => some (.object (insertMember key value before), rest)
            | _ => none
        | _ => none
    | _ => none

end

/-- The value that a text holds. Every nested call stands behind a character of its own, so the
length of the text bounds their number. -/
def parse? (text : String) : Option Json :=
  match readValue? (text.length + 1) text.toList with
  | some (value, rest) => if (skipBlanks rest).isEmpty then some value else none
  | none => none

end Ambient.Json

import Ambient.Json.Reader

namespace Ambient.Json

/-- What follows a string, from behind its opening quote on. -/
def skipChars? : List Char → Option (List Char)
  | '"' :: cs => some cs
  | '\\' :: 'u' :: a :: b :: c :: d :: cs => if (unit? a b c d).isSome then skipChars? cs else none
  | '\\' :: e :: cs => if (escaped? e).isSome then skipChars? cs else none
  | c :: cs => if c.toNat < 0x20 || c = '\\' then none else skipChars? cs
  | [] => none

/-- What follows the key of a member and the colon behind it. -/
def skipKey? (cs : List Char) : Option (List Char) :=
  match skipBlanks cs with
  | '"' :: rest => (skipChars? rest).bind fun rest =>
    match skipBlanks rest with
    | ':' :: rest => some rest
    | _ => none
  | _ => none

mutual

/-- What follows a value; `fuel` bounds the number of nested calls. -/
def skipValue? : Nat → List Char → Option (List Char)
  | 0, _ => none
  | fuel + 1, cs =>
    match skipBlanks cs with
    | 'n' :: 'u' :: 'l' :: 'l' :: rest => some rest
    | 't' :: 'r' :: 'u' :: 'e' :: rest => some rest
    | 'f' :: 'a' :: 'l' :: 's' :: 'e' :: rest => some rest
    | '"' :: rest => skipChars? rest
    | '[' :: rest =>
      match skipBlanks rest with
      | ']' :: rest => some rest
      | rest => skipItems? fuel rest
    | '\x7b' :: rest =>
      match skipBlanks rest with
      | '\x7d' :: rest => some rest
      | rest => skipMembers? fuel rest
    | rest => (JsonNumber.readParts? rest).map Prod.snd

/-- What follows the end of an array, from one of its items on. -/
def skipItems? : Nat → List Char → Option (List Char)
  | 0, _ => none
  | fuel + 1, cs =>
    match skipValue? fuel cs with
    | none => none
    | some rest =>
      match skipBlanks rest with
      | ',' :: rest => skipItems? fuel rest
      | ']' :: rest => some rest
      | _ => none

/-- What follows the end of an object, from one of its members on. -/
def skipMembers? : Nat → List Char → Option (List Char)
  | 0, _ => none
  | fuel + 1, cs =>
    match skipKey? cs with
    | none => none
    | some rest =>
      match skipValue? fuel rest with
      | none => none
      | some rest =>
        match skipBlanks rest with
        | ',' :: rest => skipMembers? fuel rest
        | '\x7d' :: rest => some rest
        | _ => none

end

end Ambient.Json

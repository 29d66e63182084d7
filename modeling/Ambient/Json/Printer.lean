import Ambient.Json.Value

namespace Ambient.Json

def hexDigit (n : Nat) : Char := Nat.digitChar n

/-- A character of a string. Quotes, backslashes and control characters are escaped. -/
def putChar (c : Char) (rest : List Char) : List Char :=
  if c = '"' then '\\' :: '"' :: rest
  else if c = '\\' then '\\' :: '\\' :: rest
  else if c = '\x08' then '\\' :: 'b' :: rest
  else if c = '\x0c' then '\\' :: 'f' :: rest
  else if c = '\n' then '\\' :: 'n' :: rest
  else if c = '\r' then '\\' :: 'r' :: rest
  else if c = '\t' then '\\' :: 't' :: rest
  else if c.toNat < 0x20 then
    '\\' :: 'u' :: '0' :: '0' :: hexDigit (c.toNat / 16) :: hexDigit (c.toNat % 16) :: rest
  else c :: rest

def putString (s : String) (rest : List Char) : List Char :=
  '"' :: s.toList.foldr putChar ('"' :: rest)

def putNumber (n : JsonNumber) (rest : List Char) : List Char :=
  match n with
  | .integer value => (toString value).toList ++ rest
  | .double bits => (Decimal.render bits).toList ++ rest

/-- The values without parts. -/
def putLiteral : Bool → List Char → List Char
  | true, rest => 't' :: 'r' :: 'u' :: 'e' :: rest
  | false, rest => 'f' :: 'a' :: 'l' :: 's' :: 'e' :: rest

mutual

/-- A value without any blanks. -/
def put : Json → List Char → List Char
  | .null, rest => 'n' :: 'u' :: 'l' :: 'l' :: rest
  | .bool b, rest => putLiteral b rest
  | .number n, rest => putNumber n rest
  | .string s, rest => putString s rest
  | .array [], rest => '[' :: ']' :: rest
  | .array (item :: items), rest => '[' :: item.put (putItems items (']' :: rest))
  | .object [], rest => '\x7b' :: '\x7d' :: rest
  | .object ((key, value) :: members), rest =>
    '\x7b' :: putString key (':' :: value.put (putMembers members ('\x7d' :: rest)))

/-- Further items, each behind a comma. -/
def putItems : List Json → List Char → List Char
  | [], rest => rest
  | item :: items, rest => ',' :: item.put (putItems items rest)

/-- Further members, each behind a comma. -/
def putMembers : List (String × Json) → List Char → List Char
  | [], rest => rest
  | (key, value) :: members, rest =>
    ',' :: putString key (':' :: value.put (putMembers members rest))

end

/-- The start of a line `level` steps inside. -/
def putLine (level : Nat) (rest : List Char) : List Char :=
  '\n' :: (List.replicate (2 * level) ' ' ++ rest)

mutual

/-- A value with every item and member on a line of its own, indented by two blanks a level. -/
def putIndented (level : Nat) : Json → List Char → List Char
  | .null, rest => 'n' :: 'u' :: 'l' :: 'l' :: rest
  | .bool b, rest => putLiteral b rest
  | .number n, rest => putNumber n rest
  | .string s, rest => putString s rest
  | .array [], rest => '[' :: ']' :: rest
  | .array (item :: items), rest =>
    '[' :: putLine (level + 1) (putIndented (level + 1) item
      (putIndentedItems (level + 1) items (putLine level (']' :: rest))))
  | .object [], rest => '\x7b' :: '\x7d' :: rest
  | .object ((key, value) :: members), rest =>
    '\x7b' :: putLine (level + 1) (putString key (':' :: ' ' :: putIndented (level + 1) value
      (putIndentedMembers (level + 1) members (putLine level ('\x7d' :: rest)))))

def putIndentedItems (level : Nat) : List Json → List Char → List Char
  | [], rest => rest
  | item :: items, rest =>
    ',' :: putLine level (putIndented level item (putIndentedItems level items rest))

def putIndentedMembers (level : Nat) : List (String × Json) → List Char → List Char
  | [], rest => rest
  | (key, value) :: members, rest =>
    ',' :: putLine level (putString key (':' :: ' ' :: putIndented level value
      (putIndentedMembers level members rest)))

end

/-- The shortest text of a value. -/
def compress (j : Json) : String := String.ofList (j.put [])

/-- The text of a value on several lines. -/
def pretty (j : Json) : String := String.ofList (j.putIndented 0 [])

end Ambient.Json

namespace Ambient.Json

/-- What has been seen of a text. -/
structure Brackets where
  /-- How many brackets are open. -/
  depth : Nat := 0
  deepest : Nat := 0
  inString : Bool := false
  /-- Whether the character before is a backslash that counts. -/
  escaped : Bool := false

/-- Passes over a character. Brackets inside strings do not count, and a closing bracket too many
changes nothing. -/
def Brackets.pass (s : Brackets) (c : Char) : Brackets :=
  if s.inString then
    if s.escaped then { s with escaped := false }
    else if c = '\\' then { s with escaped := true }
    else if c = '"' then { s with inString := false }
    else s
  else if c = '"' then { s with inString := true }
  else if c = '[' || c = '\x7b' then
    { s with depth := s.depth + 1, deepest := max s.deepest (s.depth + 1) }
  else if c = ']' || c = '\x7d' then { s with depth := s.depth - 1 }
  else s

/-- The deepest nesting of brackets in a text. -/
def nestingDepth (text : String) : Nat := (text.toList.foldl Brackets.pass {}).deepest

end Ambient.Json

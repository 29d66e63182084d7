import Ambient.Text.Trim

namespace Ambient

/-- What stands between the delimiters of a comment. -/
def commentBody : List Char → List Char
  | '/' :: '/' :: cs => cs.dropWhile (· = '/')
  | '/' :: '*' :: cs => if ['*', '/'].isSuffixOf cs then cs.take (cs.length - 2) else cs
  | cs => cs

/-- A line without white space at its ends and without the run of stars or tildes it starts
with. -/
def undecorate (line : List Char) : List Char :=
  trim ((trim line).dropWhile fun c => c = '*' || c = '~')

/-- The lines of a comment that say something. -/
def documentationLines (comment : String) : List (List Char) :=
  ((splitLines (commentBody comment.toList)).map undecorate).filter fun line => !line.isEmpty

/-- The documentation that a comment holds, its lines joined by carriage return and line feed. -/
def documentation (comment : String) : Option String :=
  match documentationLines comment with
  | [] => none
  | lines => some ("\r\n".intercalate (lines.map String.ofList))

end Ambient

import Ambient.Kind.Class
import Ambient.Message
import Ambient.Text.Position

namespace Ambient

/-- A comment with its delimiters, and the offset at which it starts. -/
structure Comment where
  start : Nat
  text : String
deriving DecidableEq

/-- A token of a source text. -/
structure Lexeme where
  kind : Kind
  /-- The offset of its first character. -/
  start : Nat
  /-- The token as it is written. -/
  text : String
  /-- Whether a line break stands between it and the token before. -/
  onNewLine : Bool
  /-- The last comment that leads it. -/
  comment : Option Comment
  /-- What is wrong with it, if it is malformed. -/
  error : Option Message
deriving DecidableEq

namespace Lexeme

/-- The offset right behind the token. -/
def stop (t : Lexeme) : Nat := t.start + t.text.utf8ByteSize

/-- What stands between the quotes of a string literal, and the text of any other token. A string
literal with an error has no closing quote. -/
def value (t : Lexeme) : String :=
  if t.kind = .stringLiteral then
    let inner := t.text.toList.drop 1
    String.ofList (if t.error.isSome then inner else inner.dropLast)
  else t.text

end Lexeme

end Ambient

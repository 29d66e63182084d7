import Ambient.Lexeme.Scan

namespace Ambient

/-- The tokens of a text from some token on. -/
structure Stream where
  current : Lexeme
  ahead : List Lexeme
deriving DecidableEq

namespace Stream

/-- The current token and those behind it. -/
def toList (s : Stream) : List Lexeme := s.current :: s.ahead

/-- Goes on to the next token; behind the last one there is none, so the stream stays there. -/
def next (s : Stream) : Stream :=
  match s.ahead with
  | [] => s
  | t :: ts => ⟨t, ts⟩

/-- All tokens of a text, of which there is at least the end of the text. -/
def ofText (text : String) : Stream :=
  match lexemes text with
  | t :: ts => ⟨t, ts⟩
  | [] => ⟨⟨.endOfFileToken, 0, "", false, none, none⟩, []⟩

end Stream

end Ambient

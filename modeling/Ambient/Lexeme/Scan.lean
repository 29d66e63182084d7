import Ambient.Lexeme.Trivia

namespace Ambient

/-- Kind and length in characters of the token at the start of a text, and what is wrong with
it. -/
structure Reading where
  kind : Kind
  length : Nat
  error : Option Message := none

namespace Reading

/-- The tokens that are one character whatever follows. -/
def punctuation : List (Char × Kind) := [
  ('(', .openParenToken), (')', .closeParenToken), ('{', .openBraceToken),
  ('}', .closeBraceToken), ('[', .openBracketToken), (']', .closeBracketToken),
  (';', .semicolonToken), (',', .commaToken), (':', .colonToken), ('?', .questionToken),
  ('<', .lessThanToken), ('>', .greaterThanToken), ('|', .barToken), ('&', .ampersandToken),
  ('+', .plusToken), ('-', .minusToken), ('*', .asteriskToken), ('/', .slashToken),
  ('%', .percentToken), ('^', .caretToken), ('!', .exclamationToken), ('~', .tildeToken),
  ('@', .atToken), ('#', .hashToken), ('\x60', .backtickToken)]

/-- Length of the part of a string literal behind its opening quote, added to `n`, and whether it
is closed. A backslash takes the next character with it, whatever it is. -/
def stringLength (quote : Char) (n : Nat) : List Char → Nat × Bool
  | [] => (n, false)
  | c :: cs =>
    if c = quote then (n + 1, true)
    else if isLineBreak c then (n, false)
    else if c = '\\' then
      match cs with
      | [] => (n + 1, false)
      | _ :: cs => stringLength quote (n + 2) cs
    else stringLength quote (n + 1) cs

def string (quote : Char) (cs : List Char) : Reading :=
  let (n, closed) := stringLength quote 1 cs
  ⟨.stringLiteral, n, if closed then none else some .unterminatedString⟩

def digitCount (cs : List Char) : Nat := (cs.takeWhile isDigit).length

/-- A number whose digits were read up to `n`: an exponent may follow in `cs`. -/
def exponent (n : Nat) (cs : List Char) : Reading :=
  match cs with
  | e :: cs =>
    if e = 'e' || e = 'E' then
      let signed := match cs with
        | s :: _ => s = '+' || s = '-'
        | [] => false
      let sign := if signed then 1 else 0
      let digits := digitCount (cs.drop sign)
      ⟨.numericLiteral, n + 1 + sign + digits,
        if digits = 0 then some .digitExpected else none⟩
    else ⟨.numericLiteral, n, none⟩
  | [] => ⟨.numericLiteral, n, none⟩

def decimal (cs : List Char) : Reading :=
  let whole := digitCount cs
  match cs.drop whole with
  | '.' :: rest =>
    let fraction := digitCount rest
    exponent (whole + 1 + fraction) (rest.drop fraction)
  | rest => exponent whole rest

def hexadecimal (cs : List Char) : Reading :=
  let digits := (cs.takeWhile isHexDigit).length
  ⟨.numericLiteral, 2 + digits, if digits = 0 then some .hexDigitExpected else none⟩

def number (cs : List Char) : Reading :=
  match cs with
  | '0' :: 'x' :: rest => hexadecimal rest
  | '0' :: 'X' :: rest => hexadecimal rest
  | cs => decimal cs

def word (cs : List Char) : Reading :=
  let letters := cs.takeWhile isIdentifierPart
  ⟨(Kind.keyword? (String.ofList letters)).getD .identifier, letters.length, none⟩

/-- The token that starts with `c`, when no rule of its own decides. -/
def single (c : Char) (cs : List Char) : Reading :=
  match punctuation.lookup c with
  | some kind => ⟨kind, 1, none⟩
  | none =>
    if c = '=' then ⟨.equalsToken, 1, none⟩
    else if c = '.' then ⟨.dotToken, 1, none⟩
    else if c = '"' || c = '\'' then string c cs
    else if isDigit c then number (c :: cs)
    else if isIdentifierStart c then word (c :: cs)
    else ⟨.unknown, 1, some .invalidCharacter⟩

/-- The token at the start of a text that does not start with trivia. -/
def ofChars (cs : List Char) : Reading :=
  match cs with
  | [] => ⟨.endOfFileToken, 0, none⟩
  | '=' :: '>' :: _ => ⟨.equalsGreaterThanToken, 2, none⟩
  | '.' :: '.' :: '.' :: _ => ⟨.dotDotDotToken, 3, none⟩
  | '.' :: d :: rest => if isDigit d then number ('.' :: d :: rest) else ⟨.dotToken, 1, none⟩
  | c :: rest => single c rest

end Reading

/-- A place in a text: the bytes before it and the characters behind it. -/
structure Cursor where
  offset : Nat
  rest : List Char

/-- The token behind the trivia at a place, and the place behind that token. A block comment
without end reaches to the end of the text and is a malformed token there. -/
def Cursor.scan (c : Cursor) : Lexeme × Cursor :=
  let gap := Trivia.skip c.rest
  let start := c.offset + byteLength (gap.pieces.flatMap Trivia.chars)
  let onNewLine := gap.pieces.any Trivia.breaksLine
  let comment := Trivia.leadingComment c.offset gap.pieces
  if gap.closed then
    let reading := Reading.ofChars gap.rest
    let taken := gap.rest.take reading.length
    (⟨reading.kind, start, String.ofList taken, onNewLine, comment, reading.error⟩,
      ⟨start + byteLength taken, gap.rest.drop reading.length⟩)
  else
    let stop := start + byteLength gap.rest
    (⟨.unknown, stop, "", onNewLine, comment, some .commentEndExpected⟩, ⟨stop, []⟩)

/-- The lexemes from a place on, up to and with the end of the text, behind those read before in
reverse order. `bound` is the number of lexemes to read at most. -/
def Cursor.lexemesFrom (before : List Lexeme) : Nat → Cursor → List Lexeme
  | 0, _ => before.reverse
  | bound + 1, c =>
    let (t, next) := c.scan
    if t.kind = .endOfFileToken then (t :: before).reverse
    else next.lexemesFrom (t :: before) bound

/-- All lexemes of a text. Each but the last takes up at least one character. -/
def lexemes (text : String) : List Lexeme :=
  Cursor.lexemesFrom [] (text.length + 1) ⟨0, text.toList⟩

/-- A scanner stands behind the last token it has read. -/
structure Scanner where
  current : Lexeme
  cursor : Cursor

namespace Scanner

/-- A scanner that has read nothing yet. -/
def ofText (text : String) : Scanner := ⟨⟨.unknown, 0, "", false, none, none⟩, ⟨0, text.toList⟩⟩

/-- Reads the next token. Behind the last token this gives the end of the text again. -/
def scan (s : Scanner) : Scanner :=
  let (t, next) := s.cursor.scan
  ⟨t, next⟩

/-- Whether two scanners of one text stand at the same token with the same trivia before it. -/
def same (s t : Scanner) : Bool := s.current = t.current

end Scanner

end Ambient

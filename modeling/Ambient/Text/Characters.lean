import Ambient.Text.IdentifierRanges

namespace Ambient

/-- The characters that end a line of source text. -/
def isLineBreak (c : Char) : Bool :=
  c = '\n' || c = '\r' || c = '\u2028' || c = '\u2029'

/-- Blank characters other than line breaks: spaces, tabulators and the byte order mark. -/
def blankRanges : CodeRanges := [
  (0x9, 0x9), (0xb, 0xc), (0x20, 0x20), (0xa0, 0xa0), (0x1680, 0x1680), (0x2000, 0x200a),
  (0x202f, 0x202f), (0x205f, 0x205f), (0x3000, 0x3000), (0xfeff, 0xfeff)]

def isBlank (c : Char) : Bool := blankRanges.contains c

/-- Unicode's `White_Space`. -/
def whiteSpaceRanges : CodeRanges := [
  (0x9, 0xd), (0x20, 0x20), (0x85, 0x85), (0xa0, 0xa0), (0x1680, 0x1680), (0x2000, 0x200a),
  (0x2028, 0x2029), (0x202f, 0x202f), (0x205f, 0x205f), (0x3000, 0x3000)]

def isWhiteSpace (c : Char) : Bool := whiteSpaceRanges.contains c

def isDigit (c : Char) : Bool := c.isDigit

def isHexDigit (c : Char) : Bool :=
  c.isDigit || ('a' ≤ c && c ≤ 'f') || ('A' ≤ c && c ≤ 'F')

def isIdentifierStart (c : Char) : Bool :=
  c = '_' || c = '$' || c.isAlpha || identifierStartRanges.contains c

/-- Whatever starts an identifier can also continue one. -/
def isIdentifierPart (c : Char) : Bool :=
  isIdentifierStart c || c.isDigit || identifierContinueRanges.contains c

end Ambient

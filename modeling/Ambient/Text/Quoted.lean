import Ambient.Text.HiddenRanges

namespace Ambient.Quoted

/-- The digits of a number in base sixteen. -/
def hex (n : Nat) : List Char := Nat.toDigits 16 n

/-- Whether a character is written by its code point. -/
def isHidden (c : Char) : Bool := c.toNat < 0x20 || c.toNat = 0x7f || hiddenRanges.contains c

def encodeChar (c : Char) : List Char :=
  if c = '\x00' then ['\\', '0']
  else if c = '\t' then ['\\', 't']
  else if c = '\r' then ['\\', 'r']
  else if c = '\n' then ['\\', 'n']
  else if c = '"' then ['\\', '"']
  else if c = '\\' then ['\\', '\\']
  else if isHidden c then ['\\', 'u', '\x7b'] ++ hex c.toNat ++ ['\x7d']
  else [c]

/-- A text between double quotes. -/
def encode (text : String) : String :=
  String.ofList ('"' :: text.toList.flatMap encodeChar ++ ['"'])

end Ambient.Quoted

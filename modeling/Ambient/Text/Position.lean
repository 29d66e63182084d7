namespace Ambient

/-- How many bytes the UTF-8 form of some characters takes. -/
def byteLength (cs : List Char) : Nat := cs.foldr (fun c n => c.utf8Size + n) 0

/-- The characters that start at or after byte `n`. -/
def dropBytes : Nat → List Char → List Char
  | 0, cs => cs
  | _, [] => []
  | n, c :: cs => dropBytes (n - c.utf8Size) cs

/-- The characters that start before byte `n`. -/
def takeBytes : Nat → List Char → List Char
  | 0, _ => []
  | _, [] => []
  | n, c :: cs => c :: takeBytes (n - c.utf8Size) cs

/-- A start and a length. -/
structure Span where
  start : Nat
  length : Nat
deriving DecidableEq

namespace Span

/-- The first offset behind the span. -/
def stop (s : Span) : Nat := s.start + s.length

def render (s : Span) : String := toString s.start ++ ".." ++ toString s.stop

end Span

/-- The bytes from `start` up to, and without, `stop`. -/
structure TextRange where
  start : Nat
  stop : Nat
deriving DecidableEq

namespace TextRange

def toSpan (r : TextRange) : Span := ⟨r.start, r.stop - r.start⟩

/-- The part of a text that the range covers. Its ends are character boundaries. -/
def slice (r : TextRange) (text : String) : String :=
  String.ofList (takeBytes (r.stop - r.start) (dropBytes r.start text.toList))

end TextRange

/-- A line and a column, both counted from zero. Columns count bytes, and only a line feed starts a
new line. -/
structure LineColumn where
  line : Nat
  column : Nat
deriving DecidableEq

/-- Line and column counted from one, as messages show them. -/
def LineColumn.render (p : LineColumn) : String :=
  toString (p.line + 1) ++ "," ++ toString (p.column + 1)

/-- The offsets at which the lines of a text start, in order, and the size of the text. -/
structure LineMap where
  starts : List Nat
  size : Nat
deriving DecidableEq

namespace LineMap

/-- The offsets right behind each line feed of `cs`, whose first character stands at `offset`. -/
def startsAfter : Nat → List Char → List Nat
  | _, [] => []
  | offset, c :: cs =>
    if c = '\n' then (offset + c.utf8Size) :: startsAfter (offset + c.utf8Size) cs
    else startsAfter (offset + c.utf8Size) cs

def ofText (text : String) : LineMap := ⟨0 :: startsAfter 0 text.toList, text.utf8ByteSize⟩

def lineCount (m : LineMap) : Nat := m.starts.length

/-- Line and column of an offset; an offset behind the text counts as its end. -/
def locate (m : LineMap) (offset : Nat) : LineColumn :=
  let p := min offset m.size
  let reached := m.starts.filter (· ≤ p)
  ⟨reached.length - 1, p - reached.getLastD 0⟩

end LineMap

end Ambient

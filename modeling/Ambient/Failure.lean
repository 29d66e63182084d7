import Ambient.Message
import Ambient.Text.Position

namespace Ambient

/-- Why a parse failed, and at which offset. -/
structure Failure where
  position : Nat
  message : Message
  arguments : List String := []
deriving DecidableEq

namespace Failure

def code (f : Failure) : Nat := f.message.code

def text (f : Failure) : String := f.message.text f.arguments

/-- Whether two failures tell the reader the same. -/
def agrees (f g : Failure) : Bool := f.code = g.code && f.text = g.text

end Failure

/-- A failure together with its line and column. -/
structure ParseError extends Failure where
  location : LineColumn
deriving DecidableEq

namespace ParseError

/-- The text of an error as it is shown without a file name. -/
def render (e : ParseError) : String :=
  "(" ++ e.location.render ++ "): error TS" ++ toString e.code ++ ": " ++ e.text

end ParseError

/-- Finds line and column of a failure. -/
def Failure.locate (f : Failure) (lines : LineMap) : ParseError := ⟨f, lines.locate f.position⟩

end Ambient

import Ambient.Failure

namespace Ambient

/-- Something to tell the user, and where it belongs. -/
structure Diagnostic where
  file : Option String
  span : Option Span
  location : Option LineColumn
  text : String
  code : Nat
  severity : Severity
deriving DecidableEq

namespace Diagnostic

/-- A diagnostic that belongs to no file. -/
def ofMessage (m : Message) (arguments : List String) : Diagnostic :=
  ⟨none, none, none, m.text arguments, m.code, m.severity⟩

/-- A parse error in a file. -/
def ofError (e : ParseError) (file : String) : Diagnostic :=
  ⟨some file, some ⟨e.position, 0⟩, some e.location, e.text, e.code, .error⟩

def isError (d : Diagnostic) : Bool := d.severity = .error

/-- The place in front of a diagnostic: its file, then line and column or else the offset. -/
def renderPlace (d : Diagnostic) : String :=
  match d.file with
  | none => ""
  | some file =>
    match d.location, d.span with
    | some place, _ => file ++ "(" ++ place.render ++ "): "
    | none, some span => file ++ "(" ++ toString span.start ++ "): "
    | none, none => file ++ ": "

def render (d : Diagnostic) : String :=
  d.renderPlace ++ d.severity.render ++ " TS" ++ toString d.code ++ ": " ++ d.text

/-- The offset by which diagnostics of one file are sorted. -/
def start (d : Diagnostic) : Nat := (d.span.map Span.start).getD 0

/-- Whether `d` may stand before `e`: diagnostics without file come first, then files in the order
of their names, and in a file the order is that of the offsets. -/
def before (d e : Diagnostic) : Bool :=
  match d.file, e.file with
  | none, none => d.start ≤ e.start
  | none, some _ => true
  | some _, none => false
  | some f, some g => f < g || (f = g && d.start ≤ e.start)

/-- Sorts diagnostics; those that belong to the same place stay in their order. -/
def sort (ds : List Diagnostic) : List Diagnostic := ds.mergeSort before

def errorCount (ds : List Diagnostic) : Nat := ds.countP isError

def hasErrors (ds : List Diagnostic) : Bool := ds.any isError

end Diagnostic

end Ambient

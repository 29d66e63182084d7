import Ambient.Command.Arguments
import Ambient.Command.FileSystem
import Ambient.Command.Path
import Ambient.Diagnostic
import Ambient.Interchange.Encode
import Ambient.Options.Reader
import Ambient.Parse

namespace Ambient

/-- What ends a run early. -/
inductive RunError where
  | unreadableConfig (path : String) (error : FileError)
  | invalidConfig (path : String) (error : Options.ReadError)
  | unwritable (path : String) (error : FileError)

def Options.ReadError.message : Options.ReadError → String
  | .malformed => "malformed document"
  | .invalid issue => issue.message

def RunError.message : RunError → String
  | .unreadableConfig path e => "cannot read config file '" ++ path ++ "': " ++ e.message
  | .invalidConfig path e => "invalid config file '" ++ path ++ "': " ++ e.message
  | .unwritable path e => "cannot write '" ++ path ++ "': " ++ e.message

/-- What has become of an input. -/
structure Report where
  path : String
  outcome : Except Diagnostic Node

namespace Report

def tree? (r : Report) : Option Node := r.outcome.toOption

def diagnostic? (r : Report) : Option Diagnostic :=
  match r.outcome with
  | .ok _ => none
  | .error d => some d

/-- The report on an input whose text, or the reason why it has none, is known. -/
def ofText (options : Options) (path : String) : Except FileError String → Report
  | .ok text => ⟨path, (parse .file options text).mapError fun e => .ofError e path⟩
  | .error .notFound => ⟨path, .error (.ofMessage .fileNotFound [path])⟩
  | .error e => ⟨path, .error (.ofMessage .fileUnreadable [path, e.message])⟩

end Report

/-- The result of a run. -/
structure Outcome where
  output : String
  diagnostics : List Diagnostic

namespace Arguments

variable {m : Type → Type} [Monad m]

/-- The options of a run: those of the command line, then those of the file that it names. -/
def loadOptions (fs : FileSystem m) (a : Arguments) : ExceptT RunError m Options := do
  match a.config with
  | none => return a.options
  | some path =>
    match ← fs.read path with
    | .error e => throw (.unreadableConfig path e)
    | .ok text =>
      match Options.parse text with
      | .error e => throw (.invalidConfig path e)
      | .ok options => return a.options.mergedWith options

/-- The document of a tree. -/
def document (a : Arguments) (tree : Node) : String :=
  if a.pretty then tree.toPrettyText else tree.toText

/-- Writes a text to a file. -/
def writeFile (fs : FileSystem m) (path text : String) : ExceptT RunError m Unit := do
  match ← fs.write path text with
  | .ok () => return
  | .error e => throw (.unwritable path e)

/-- Writes each document to a file of its own in a directory. -/
def writeFiles (fs : FileSystem m) (a : Arguments) (directory : String) (reports : List Report) :
    ExceptT RunError m Unit := do
  match ← fs.createDirectories directory with
  | .error e => throw (.unwritable directory e)
  | .ok () =>
    reports.forM fun r =>
      match r.tree? with
      | some tree => writeFile fs (Path.output directory r.path) (a.document tree)
      | none => pure ()

/-- Writes the documents, and gives those that go to standard output, each on a line. -/
def deliver (fs : FileSystem m) (a : Arguments) (reports : List Report) :
    ExceptT RunError m String := do
  if a.check then return ""
  else match a.outDir with
    | some directory =>
      writeFiles fs a directory reports
      return ""
    | none =>
      return String.join ((reports.filterMap Report.tree?).map fun t => a.document t ++ "\n")

/-- Runs the program. -/
def run (fs : FileSystem m) (a : Arguments) : ExceptT RunError m Outcome := do
  let options ← loadOptions fs a
  let reports ← a.files.mapM fun path => do return Report.ofText options path (← fs.read path)
  let output ← deliver fs a reports
  return ⟨output, Diagnostic.sort (reports.filterMap Report.diagnostic?)⟩

end Arguments

end Ambient

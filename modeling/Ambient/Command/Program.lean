import Ambient.Command.Run

namespace Ambient

/-- What a program leaves behind. -/
structure Exit where
  code : UInt32
  output : String := ""
  errors : String := ""

namespace Program

def name : String := "tsdecl"

def version : String := "0.1.0"

def usage : String := "Usage: " ++ name ++ " [OPTIONS] <FILE>..."

def help : String := "\n".intercalate [
  "Parse TypeScript declaration files into a JSON syntax tree",
  "",
  usage,
  "",
  "Arguments:",
  "  <FILE>...  Declaration files to parse",
  "",
  "Options:",
  "      --pretty         Indent the JSON output",
  "  -c, --config <PATH>  JSON file with parser options (`maxDepth`, `attachComments`)",
  "      --maxDepth <N>   Maximum nesting of types and namespaces",
  "      --noComments     Do not attach doc comments to declarations",
  "      --outDir <DIR>   Write one `<file>.json` per input into this directory instead of stdout",
  "      --check          Only report syntax errors; write no JSON",
  "  -h, --help           Print help",
  "  -V, --version        Print version",
  ""]

end Program

/-- What is wrong with a command line. -/
def UsageError.message : UsageError → String
  | .missingFile => "the following required arguments were not provided:\n  <FILE>..."
  | .unknown argument => "unexpected argument '" ++ argument ++ "' found"
  | .badValue argument value => "invalid value '" ++ value ++ "' for '" ++ argument ++ "'"
  | .missingValue argument =>
    "a value is required for '" ++ argument ++ "' but none was supplied"
  | .repeated argument => "the argument '" ++ argument ++ "' cannot be used multiple times"
  | .unexpectedValue argument => "unexpected value for '" ++ argument ++ "' found"
  | .help => Program.help
  | .version => Program.name ++ " " ++ Program.version ++ "\n"

/-- How a program ends whose command line is not followed. -/
def UsageError.exit (e : UsageError) : Exit :=
  match e with
  | .help => ⟨0, e.message, ""⟩
  | .version => ⟨0, e.message, ""⟩
  | e => ⟨2, "", "error: " ++ e.message ++ "\n\n" ++ Program.usage ++
      "\n\nFor more information, try '--help'.\n"⟩

/-- How a program ends whose run ends early. -/
def RunError.exit (e : RunError) : Exit := ⟨1, "", "error: " ++ e.message ++ "\n"⟩

/-- How a program ends after a run: diagnostics are printed one a line, and the number of errors
behind an empty line, if there are any. -/
def Outcome.exit (o : Outcome) : Exit :=
  let lines := String.join (o.diagnostics.map fun d => d.render ++ "\n")
  if Diagnostic.hasErrors o.diagnostics then
    let count := toString (Diagnostic.errorCount o.diagnostics)
    ⟨1, o.output, lines ++ "\n" ++ Message.text .errorsFound [count] ++ "\n"⟩
  else ⟨0, o.output, lines⟩

/-- The program. -/
def program {m : Type → Type} [Monad m] (fs : FileSystem m) (arguments : List String) : m Exit := do
  match Arguments.parse arguments with
  | .error e => return e.exit
  | .ok a =>
    match ← (a.run fs).run with
    | .error e => return e.exit
    | .ok outcome => return outcome.exit

end Ambient

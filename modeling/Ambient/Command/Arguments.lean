import Ambient.Options

namespace Ambient

/-- What a command line asks for. -/
structure Arguments where
  files : List String := []
  /-- Whether documents are indented. -/
  pretty : Bool := false
  /-- A file with options. -/
  config : Option String := none
  maxDepth : Option Nat := none
  noComments : Bool := false
  /-- The directory for documents, which otherwise go to standard output. -/
  outDir : Option String := none
  /-- Whether inputs are only checked. -/
  check : Bool := false
deriving DecidableEq

/-- The options that the command line itself sets. -/
def Arguments.options (a : Arguments) : Options :=
  ⟨a.maxDepth, if a.noComments then some false else none⟩

/-- Why a command line is not followed. -/
inductive UsageError where
  | missingFile
  | unknown (argument : String)
  /-- A value that is not of the right form. -/
  | badValue (argument value : String)
  | missingValue (argument : String)
  | repeated (argument : String)
  /-- A switch with a value. -/
  | unexpectedValue (argument : String)
  /-- Not an error, but help is asked for. -/
  | help
  /-- Not an error, but the version is asked for. -/
  | version
deriving DecidableEq

namespace Arguments

/-- The arguments that take no value. -/
inductive Switch where
  | pretty | noComments | check | help | version
deriving DecidableEq

/-- The arguments that take a value. -/
inductive Setting where
  | config | maxDepth | outDir
deriving DecidableEq

/-- An argument that is no file. -/
inductive Flag where
  | switch (s : Switch)
  | setting (s : Setting)
deriving DecidableEq

def longFlags : List (String × Flag) := [
  ("pretty", .switch .pretty), ("noComments", .switch .noComments), ("check", .switch .check),
  ("help", .switch .help), ("version", .switch .version), ("config", .setting .config),
  ("maxDepth", .setting .maxDepth), ("outDir", .setting .outDir)]

def shortFlags : List (Char × Flag) := [
  ('h', .switch .help), ('V', .switch .version), ('c', .setting .config)]

/-- How messages call a setting. -/
def Setting.name : Setting → String
  | .config => "--config"
  | .maxDepth => "--maxDepth"
  | .outDir => "--outDir"

def digitsValue? (cs : List Char) : Option Nat :=
  if cs.isEmpty || !cs.all Char.isDigit then none
  else some (cs.foldl (fun n c => n * 10 + (c.toNat - '0'.toNat)) 0)

/-- A natural number of 32 bits, which may have a sign. -/
def depth? (text : String) : Option Nat := do
  let n ← match text.toList with
    | '+' :: cs => digitsValue? cs
    | '-' :: cs => if (← digitsValue? cs) = 0 then some 0 else none
    | cs => digitsValue? cs
  if n < 0x100000000 then some n else none

/-- Takes over the value of a setting, which may be given only once. -/
def set (a : Arguments) (s : Setting) (value : String) : Except UsageError Arguments :=
  match s with
  | .config =>
    if a.config.isSome then .error (.repeated s.name)
    else if value.isEmpty then .error (.missingValue s.name)
    else .ok { a with config := some value }
  | .outDir =>
    if a.outDir.isSome then .error (.repeated s.name)
    else if value.isEmpty then .error (.missingValue s.name)
    else .ok { a with outDir := some value }
  | .maxDepth =>
    if a.maxDepth.isSome then .error (.repeated s.name)
    else match depth? value with
      | some n => .ok { a with maxDepth := some n }
      | none => .error (.badValue s.name value)

/-- Turns a switch on, which may be done only once. -/
def turnOn (a : Arguments) (s : Switch) : Except UsageError Arguments :=
  match s with
  | .pretty => if a.pretty then .error (.repeated "--pretty") else .ok { a with pretty := true }
  | .noComments =>
    if a.noComments then .error (.repeated "--noComments") else .ok { a with noComments := true }
  | .check => if a.check then .error (.repeated "--check") else .ok { a with check := true }
  | .help => .error .help
  | .version => .error .version

/-- What has been read of a command line. -/
structure Progress where
  arguments : Arguments := {}
  /-- The last setting, with its value if that has been read, as long as it is not taken over. -/
  pending : Option (Setting × Option String) := none

namespace Progress

/-- Takes over the last setting. -/
def resolve (p : Progress) : Except UsageError Arguments :=
  match p.pending with
  | none => .ok p.arguments
  | some (s, none) => .error (.missingValue s.name)
  | some (s, some value) => p.arguments.set s value

/-- A switch, or a setting with or without its value. -/
def flag (p : Progress) (f : Flag) (value : Option String) (name : String) :
    Except UsageError Progress :=
  match f, value with
  | .switch s, none => do return ⟨← (← p.resolve).turnOn s, none⟩
  | .switch _, some _ => .error (.unexpectedValue name)
  | .setting s, none => do return ⟨← p.resolve, some (s, none)⟩
  | .setting s, some value => do return ⟨← (← p.resolve).set s value, none⟩

/-- An argument behind two dashes, which may hold a value behind an equals sign. -/
def long (p : Progress) (cs : List Char) : Except UsageError Progress :=
  let name := String.ofList (cs.takeWhile (· ≠ '='))
  let value := match cs.dropWhile (· ≠ '=') with
    | _ :: value => some (String.ofList value)
    | [] => none
  match longFlags.lookup name with
  | some f => p.flag f value ("--" ++ name)
  | none => .error (.unknown ("--" ++ name))

/-- Letters behind one dash. What follows the letter of a setting is its value. -/
def short (p : Progress) : List Char → Except UsageError Progress
  | [] => .ok p
  | c :: cs =>
    match shortFlags.lookup c with
    | none => .error (.unknown (String.ofList ['-', c]))
    | some (.switch s) => do short (← p.flag (.switch s) none (String.ofList ['-', c])) cs
    | some (.setting s) =>
      match cs with
      | [] => p.flag (.setting s) none s.name
      | '=' :: value => p.flag (.setting s) (some (String.ofList value)) s.name
      | value => p.flag (.setting s) (some (String.ofList value)) s.name

/-- A file, or the value for which a setting waits. -/
def plain (p : Progress) (argument : String) : Except UsageError Progress :=
  match p.pending with
  | some (s, none) => .ok { p with pending := some (s, some argument) }
  | _ => do
    let a ← p.resolve
    return ⟨{ a with files := a.files ++ [argument] }, none⟩

/-- The end of a command line, of which `files` is what stands behind `--`. -/
def finish (p : Progress) (files : List String) : Except UsageError Arguments := do
  let a ← p.resolve
  let a := { a with files := a.files ++ files }
  if a.files.isEmpty then throw .missingFile else return a

/-- Reads the arguments that are left. -/
def read (p : Progress) : List String → Except UsageError Arguments
  | [] => p.finish []
  | argument :: rest =>
    match argument.toList with
    | ['-', '-'] => p.finish rest
    | '-' :: '-' :: cs => do (← p.long cs).read rest
    | '-' :: c :: cs => do (← p.short (c :: cs)).read rest
    | _ => do (← p.plain argument).read rest

end Progress

/-- Reads a command line. Switches and settings may stand anywhere among the files, and behind `--`
there are only files. The value of a setting is looked at only when the next argument is met. -/
def parse (arguments : List String) : Except UsageError Arguments :=
  Progress.read {} arguments

end Arguments

end Ambient

namespace Ambient.Path

/-- What stands between the slashes of a path. -/
def segments : List Char → List (List Char)
  | [] => [[]]
  | c :: cs =>
    if c = '/' then [] :: segments cs
    else match segments cs with
      | s :: ss => (c :: s) :: ss
      | [] => [[c]]

/-- The parts of a path. Slashes that follow each other count as one. -/
def parts (path : String) : List String :=
  ((segments path.toList).filter fun s => !s.isEmpty).map String.ofList

def isAbsolute (path : String) : Bool := path.toList.head? = some '/'

def endsWithSlash (path : String) : Bool := path.toList.getLast? = some '/'

/-- The parts of a path without those that stay where they are, except for one at its start. -/
def steps (path : String) : List String :=
  match parts path with
  | [] => []
  | first :: others =>
    let others := others.filter (· ≠ ".")
    if first = "." && isAbsolute path then others else first :: others

/-- The last part of a path, if it names something. -/
def fileName? (path : String) : Option String :=
  match (steps path).getLast? with
  | some "." => none
  | some ".." => none
  | last => last

/-- The path without its last part. -/
def parent? (path : String) : Option String :=
  match steps path with
  | [] => none
  | s :: ss =>
    let rest := "/".intercalate (s :: ss).dropLast
    some (if isAbsolute path then "/" ++ rest else rest)

/-- The path of something in a directory. -/
def join (directory path : String) : String :=
  if isAbsolute path then path
  else if directory.isEmpty || endsWithSlash directory then directory ++ path
  else directory ++ "/" ++ path

/-- Where the document of an input goes: a file in a directory, named for the input. -/
def output (directory input : String) : String :=
  join directory ((fileName? input).getD input ++ ".json")

end Ambient.Path

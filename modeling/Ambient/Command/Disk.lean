import Ambient.Command.FileSystem
import Ambient.Command.Path

namespace Ambient

/-- What a path can lead to. -/
inductive Item where
  | file (bytes : ByteArray)
  | directory

namespace Item

def isDirectory : Item → Bool
  | .directory => true
  | .file _ => false

/-- Whether an item is a file with a given content. -/
def holds (bytes : ByteArray) : Item → Bool
  | .directory => false
  | .file content => content.toList == bytes.toList

end Item

/-- The names of the directories above something, from the working directory on, and its own. -/
abbrev Location := List String

/-- All files and directories below the working directory. A path that leads out of it leads
nowhere. -/
structure Disk where
  items : List (Location × Item) := []

namespace Disk

def find? (d : Disk) (l : Location) : Option Item :=
  if l.isEmpty then some .directory else d.items.lookup l

/-- Puts an item at a location, in place of what is there. -/
def put (d : Disk) (l : Location) (item : Item) : Disk :=
  ⟨d.items.filter (fun entry => entry.1 ≠ l) ++ [(l, item)]⟩

/-- The longest name that a file may have, in bytes. -/
def maxName : Nat := 255

/-- The longest path that is looked at, in bytes. -/
def maxPath : Nat := 4095

/-- Follows one part of a path. What it leads to need not exist. -/
def follow (d : Disk) (l : Location) (part : String) : Except FileError Location :=
  match d.find? l with
  | none => .error .notFound
  | some (.file _) => .error .notDirectory
  | some .directory =>
    if part = "." then .ok l
    else if part = ".." then if l.isEmpty then .error .notFound else .ok l.dropLast
    else if maxName < part.utf8ByteSize then .error .nameTooLong
    else .ok (l ++ [part])

/-- The location of a path. All but the last part of the path have to exist. -/
def locate (d : Disk) (path : String) : Except FileError Location :=
  if path.toList.contains '\x00' then .error .zeroInPath
  else if path.isEmpty || Path.isAbsolute path then .error .notFound
  else if maxPath < path.utf8ByteSize then .error .nameTooLong
  else (Path.parts path).foldlM d.follow []

def isDirectory (d : Disk) (path : String) : Bool :=
  match d.locate path with
  | .ok l => (d.find? l).any Item.isDirectory
  | .error _ => false

def read (path : String) (d : Disk) : Except FileError String := do
  match d.find? (← d.locate path) with
  | none => throw .notFound
  | some .directory => throw .isDirectory
  | some (.file bytes) =>
    if Path.endsWithSlash path then throw .notDirectory
    else match String.fromUTF8? bytes with
      | some text => return text
      | none => throw .notText

def write (path text : String) (d : Disk) : Except FileError Unit × Disk :=
  match d.locate path with
  | .error e => (.error e, d)
  | .ok l =>
    if (d.find? l).any Item.isDirectory then (.error .isDirectory, d)
    else (.ok (), d.put l (.file text.toUTF8))

/-- Makes one directory. -/
def createDirectory (path : String) (d : Disk) : Except FileError Unit × Disk :=
  match d.locate path with
  | .error e => (.error e, d)
  | .ok l =>
    if (d.find? l).isSome then (.error .alreadyExists, d) else (.ok (), d.put l .directory)

/-- Makes one directory unless there is one. -/
def ensureDirectory (path : String) (d : Disk) : Except FileError Unit × Disk :=
  match createDirectory path d with
  | (.error e, d) => if d.isDirectory path then (.ok (), d) else (.error e, d)
  | made => made

/-- Makes a directory, and before it up to `levels` directories above it that are missing. -/
def createUpTo : Nat → String → Disk → Except FileError Unit × Disk
  | 0, _, d => (.error .noParent, d)
  | levels + 1, path, d =>
    if path.isEmpty then (.ok (), d)
    else match ensureDirectory path d with
      | (.error .notFound, d) =>
        match Path.parent? path with
        | none => (.error .noParent, d)
        | some parent =>
          match createUpTo levels parent d with
          | (.error e, d) => (.error e, d)
          | (.ok (), d) => ensureDirectory path d
      | done => done

def createDirectories (path : String) (d : Disk) : Except FileError Unit × Disk :=
  createUpTo ((Path.parts path).length + 2) path d

/-- The file system whose files are those of a disk. -/
def fileSystem : FileSystem (StateM Disk) where
  read path := fun d => (d.read path, d)
  createDirectories path := createDirectories path
  write path text := write path text

/-- Puts an item at a path of plain names, with the directories above it. -/
def add (d : Disk) (path : String) (item : Item) : Disk :=
  let l := Path.parts path
  let above := (List.range l.length).filterMap fun n =>
    if (d.find? (l.take n)).isSome then none else some (l.take n, Item.directory)
  (Disk.mk (d.items ++ above)).put l item

/-- The files of a disk that another one does not have, or has with another content, by their
paths. -/
def changes (before after : Disk) : List (String × ByteArray) :=
  after.items.filterMap fun (l, item) =>
    match item with
    | .directory => none
    | .file bytes =>
      if (before.find? l).any (Item.holds bytes) then none else some ("/".intercalate l, bytes)

end Disk

end Ambient

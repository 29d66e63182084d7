namespace Ambient

/-- Why a file or a directory cannot be used. -/
inductive FileError where
  | notFound
  | alreadyExists
  | notDirectory
  | isDirectory
  | nameTooLong
  /-- The content of a file is not UTF-8. -/
  | notText
  /-- A path holds a zero character. -/
  | zeroInPath
  /-- No directory above the path could be made. -/
  | noParent
  | other (text : String)
deriving DecidableEq

def FileError.message : FileError → String
  | .notFound => "No such file or directory (os error 2)"
  | .alreadyExists => "File exists (os error 17)"
  | .notDirectory => "Not a directory (os error 20)"
  | .isDirectory => "Is a directory (os error 21)"
  | .nameTooLong => "File name too long (os error 36)"
  | .notText => "stream did not contain valid UTF-8"
  | .zeroInPath => "file name contained an unexpected NUL byte"
  | .noParent => "failed to create whole tree"
  | .other text => text

/-- Access to files, by their paths. -/
structure FileSystem (m : Type → Type) where
  /-- The text of a file. -/
  read : String → m (Except FileError String)
  /-- Makes a directory and those above it; those that exist already are left alone. -/
  createDirectories : String → m (Except FileError Unit)
  /-- Makes a file with a given text, in place of one that is there already. -/
  write : String → String → m (Except FileError Unit)

end Ambient

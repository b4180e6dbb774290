namespace VerbChain

/-!
# Access to files

What programs need of files: to read one, to write one, and to have the
folders above one.  A program says what it needs of any `FileAccess`, so it can
run on the files of a computer and on files that are values.
-/

/-- Why a file could not be read or written. -/
inductive FileError where
  | notFound
  /-- The name of a folder is taken by a file. -/
  | alreadyExists
  | isDirectory
  | notDirectory
  /-- A name is longer than names of files can be. -/
  | nameTooLong
  /-- A path has a zero character in it. -/
  | zeroInPath
  /-- The file does not hold what it should. -/
  | invalidData
  | other (text : String)
  deriving Repr, DecidableEq

namespace FileError

/-- The name of a kind of error. -/
def kind : FileError → String
  | .notFound => "NotFound"
  | .alreadyExists => "AlreadyExists"
  | .isDirectory => "IsADirectory"
  | .notDirectory => "NotADirectory"
  | .nameTooLong => "InvalidFilename"
  | .zeroInPath => "InvalidInput"
  | .invalidData => "InvalidData"
  | .other _ => "Other"

/-- The message of an error. -/
def message : FileError → String
  | .notFound => "No such file or directory (os error 2)"
  | .alreadyExists => "File exists (os error 17)"
  | .isDirectory => "Is a directory (os error 21)"
  | .notDirectory => "Not a directory (os error 20)"
  | .nameTooLong => "File name too long (os error 36)"
  | .zeroInPath => "file name contained an unexpected NUL byte"
  | .invalidData => "invalid data"
  | .other text => text

end FileError

/-- Reading and writing files by their paths. -/
class FileAccess (m : Type → Type) where
  /-- The text of a file. -/
  readFile : String → m (Except FileError String)
  /-- Make the folders above a path that are not there. -/
  makeFolders : String → m (Except FileError Unit)
  /-- Give a file a text, whatever it held before. -/
  writeFile : String → String → m (Except FileError Unit)

end VerbChain

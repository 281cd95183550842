/-!
# What functions ask of the file system

A `FileSystem` answers three questions about a path: what is at it, whether it is a symbolic link
itself, and what the file at it contains.  The functions that look at files use nothing else, so an
evaluation is a function of its file system as it is of its context.
-/

set_option autoImplicit false

namespace RequestCondition

/-- Why a file cannot be read. -/
inductive FileError where
  | notFound
  | denied
  | notDirectory
  | isDirectory
  | nameTooLong
  | tooManyLinks
  | nulInPath
  | notUtf8
deriving DecidableEq

namespace FileError

def message : FileError → String
  | notFound => "No such file or directory (os error 2)"
  | denied => "Permission denied (os error 13)"
  | notDirectory => "Not a directory (os error 20)"
  | isDirectory => "Is a directory (os error 21)"
  | nameTooLong => "File name too long (os error 36)"
  | tooManyLinks => "Too many levels of symbolic links (os error 40)"
  | nulInPath => "file name contained an unexpected NUL byte"
  | notUtf8 => "stream did not contain valid UTF-8"

end FileError

/-- What is at a path. -/
inductive FileStatus where
  /-- A regular file of so many bytes. -/
  | file (size : Nat)
  | directory
  /-- Neither a regular file nor a directory. -/
  | special
deriving DecidableEq

/-- The answers about paths. -/
structure FileSystem where
  /-- What is at a path, links followed. -/
  status? : String → Option FileStatus
  /-- Whether a path names a symbolic link. -/
  isLink : String → Bool
  /-- The bytes of the file at a path. -/
  read : String → Except FileError (List UInt8)

namespace FileSystem

/-- The file system without any files. -/
def empty : FileSystem := ⟨fun _ ↦ none, fun _ ↦ false, fun _ ↦ .error .notFound⟩

end FileSystem

end RequestCondition

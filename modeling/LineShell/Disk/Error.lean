/-!
Failures of files and streams, with the system's wording.
-/
namespace LineShell

/-- Why an operation on a file or stream failed. -/
inductive IoError where
  | notFound
  | busy
  | alreadyExists
  | notDirectory
  | isDirectory
  | invalid
  | nameTooLong
  | notEmpty
  | tooManyLinks
  /-- A path holds the character U+0000. -/
  | nulInName
  /-- The source of a copy is neither a regular file nor a link to one. -/
  | notRegular
  /-- A failure that a stream describes itself; `broken` when its reader has gone away. -/
  | described (text : String) (broken : Bool)
  deriving Repr, DecidableEq

namespace IoError

/-- The failure in words. -/
def message : IoError → String
  | .notFound => "No such file or directory (os error 2)"
  | .busy => "Device or resource busy (os error 16)"
  | .alreadyExists => "File exists (os error 17)"
  | .notDirectory => "Not a directory (os error 20)"
  | .isDirectory => "Is a directory (os error 21)"
  | .invalid => "Invalid argument (os error 22)"
  | .nameTooLong => "File name too long (os error 36)"
  | .notEmpty => "Directory not empty (os error 39)"
  | .tooManyLinks => "Too many levels of symbolic links (os error 40)"
  | .nulInName => "file name contained an unexpected NUL byte"
  | .notRegular => "the source path is neither a regular file nor a symlink to a regular file"
  | .described text _ => text

/-- Whether the failure says that nobody reads any more. -/
def isBrokenPipe : IoError → Bool
  | .described _ broken => broken
  | _ => false

end IoError

end LineShell

import FluentBuilders.SourcePath

/-! # Errors of files

Why a file cannot be read or written.  Only the errors that the library or a host
finds have a wording; the system's own refusals have none.
-/
namespace FluentBuilders

/-- Why a file cannot be read or written. -/
inductive FileError where
  /-- The name of the type has no path. -/
  | path (fault : PathFault)
  /-- A name holds the character that ends names. -/
  | nameEndsEarly
  /-- The content of a file is not text. -/
  | notText
  /-- The host refuses the write for a reason of its own. -/
  | refused (reason : String)
  /-- A file stands where the last directory is wanted. -/
  | alreadyExists
  /-- A file stands where a directory is wanted on the way. -/
  | notADirectory
  /-- A directory stands where a file is wanted. -/
  | isADirectory
  /-- A name, or a whole path, is longer than the system allows. -/
  | nameTooLong
  /-- There is nothing at the place. -/
  | notFound
deriving DecidableEq, Repr

/-- The wording of an error, where it has one. -/
def FileError.message? : FileError → Option String
  | .path fault => fault.message?
  | .notText => some "stream did not contain valid UTF-8"
  | .refused reason => some reason
  | .nameEndsEarly | .alreadyExists | .notADirectory | .isADirectory | .nameTooLong
  | .notFound => none

end FluentBuilders

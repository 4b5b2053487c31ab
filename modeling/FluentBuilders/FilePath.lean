import FluentBuilders.FileError

/-! # Paths of files

The text of a path is a row of components between separators.  A component
stays where it is, climbs to the directory above, or names an entry.  Both a
name and a whole path may only take so many bytes.
-/
namespace FluentBuilders

/-- One component of a path. -/
inductive Component where
  /-- A single dot: stay. -/
  | stay
  /-- Two dots: climb. -/
  | up
  /-- Anything else: the entry of that name. -/
  | name (text : String)
deriving DecidableEq, Repr

/-- Whether a component stays where it is. -/
def Component.stays : Component → Bool
  | .stay => true
  | _ => false

namespace FilePath

/-- The component that a part of a path means. -/
def component (part : List Char) : Component :=
  if part = ['.'] then .stay
  else if part = ['.', '.'] then .up
  else .name (String.ofList part)

/-- The components of a path; separators in a row count as one. -/
def components (path : String) : List Component :=
  ((path.toList.splitOn '/').filter fun part => !part.isEmpty).map component

/-- Whether a separator stands at the end of a path. -/
def endsInSeparator (path : String) : Bool :=
  path.toList.getLast? == some '/'

/-- Whether a path starts at the top. -/
def isAbsolute (path : String) : Bool :=
  path.toList.head? == some '/'

/-- A path appended to a directory.  The empty directory adds nothing, and a
separator at the end of the directory is not doubled. -/
def join (directory path : String) : String :=
  if directory = "" then path
  else if endsInSeparator directory then directory ++ path
  else directory ++ "/" ++ path

/-- Removes separators and components that stay from the end of a path, given
from its end to its start. -/
def trimBackwards : List Char → List Char
  | '/' :: '.' :: '/' :: rest => trimBackwards ('/' :: rest)
  | '/' :: rest => trimBackwards rest
  | rest => rest

/-- A path without the separators, and the components that stay, at its end. -/
def trimmed (path : String) : String :=
  match path.toList.reverse with
  | '.' :: '/' :: rest => String.ofList (trimBackwards ('/' :: rest)).reverse
  | rest => String.ofList (trimBackwards rest).reverse

/-! ## Limits -/

/-- The most bytes that a name may take. -/
def longestName : Nat := 255

/-- The most bytes that a path may take. -/
def longestPath : Nat := 4095

/-- Whether a name is too long. -/
def isNameTooLong (name : String) : Bool :=
  longestName < name.utf8ByteSize

/-- Whether a path holds the character that ends paths. -/
def endsEarly (path : String) : Bool :=
  path.toList.contains '\x00'

/-- Refuses a path that cannot be handed to the system as it is. -/
def check (path : String) : Except FileError Unit :=
  if endsEarly path then .error .nameEndsEarly
  else if longestPath < path.utf8ByteSize then .error .nameTooLong
  else .ok ()

end FilePath
end FluentBuilders

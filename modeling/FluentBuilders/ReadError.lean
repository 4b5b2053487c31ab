import FluentBuilders.FileError
import FluentBuilders.Json.Fault

/-! # Errors of reading elements

A text is blamed for its first line that holds no element; a file may also be
missing or hold no text.
-/
namespace FluentBuilders

/-- A line that holds no element. -/
structure LineError where
  /-- The number of the line, counted from one. -/
  line : Nat
  complaint : Json.Complaint
deriving DecidableEq, Repr

/-- Why elements cannot be read. -/
inductive ReadError where
  | notFound (path : String)
  | invalidLine (error : LineError)
  | file (cause : FileError)
deriving DecidableEq, Repr

namespace ReadError

/-- The wording of an error. -/
def message? : ReadError → Option String
  | .notFound path => some ("Metadata file not found: " ++ path)
  | .invalidLine error =>
    some ("Invalid element on line " ++ toString error.line ++ ": " ++ error.complaint.message)
  | .file cause => cause.message?.map fun text => "IO error: " ++ text

/-- The wordings of an error and of what is behind it, the nearest first. -/
def chain? : ReadError → Option (List String)
  | .file cause => cause.message?.map fun text => ["IO error: " ++ text, text]
  | error => error.message?.map fun text => [text]

end ReadError
end FluentBuilders

import FluentBuilders.Naming
import FluentBuilders.ReadError

/-! # Errors of a round

Why a round, or what comes before it, was given up.  A rejected element is not
among the reasons; it is reported and the round goes on.
-/
namespace FluentBuilders

/-- Why a round was given up. -/
inductive RoundError where
  /-- A builder could not be written. -/
  | unwritten (target : String) (cause : FileError)
  /-- The name of an owner is not well formed. -/
  | owner (error : OwnerError)
  /-- The elements could not be read. -/
  | reading (error : ReadError)
  /-- There are no naming rules. -/
  | naming (error : NamingError)
deriving DecidableEq, Repr

namespace RoundError

/-- The wording of an error, unless it hangs on a refusal of the system. -/
def message? : RoundError → Option String
  | .unwritten target cause => cause.message?.map fun text =>
    "Failed to write generated source " ++ target ++ ": " ++ text
  | .owner error => some ("Emit error: " ++ error.message)
  | .reading error => error.message?.map fun text => "Metadata source error: " ++ text
  | .naming error => some ("Builder error: " ++ error.message)

/-- The wordings of what is behind an error, the nearest first. -/
def causes? : RoundError → Option (List String)
  | .unwritten _ cause => cause.message?.map fun text => [text]
  | .owner error => some [error.message]
  | .reading error => error.chain?
  | .naming error => some [error.message]

end RoundError
end FluentBuilders

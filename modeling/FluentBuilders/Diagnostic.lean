import FluentBuilders.Element.Basic

/-! # Diagnostics

A message about one tagged element.  Its text names the severity and the message
on one line and points at the element on the next.
-/
namespace FluentBuilders

/-- How grave a diagnostic is.  A rejected element is always an error. -/
inductive Severity where
  | error
deriving DecidableEq, Repr

/-- The word for a severity. -/
def Severity.label : Severity → String
  | .error => "error"

/-- A message about a tagged element. -/
structure Diagnostic where
  severity : Severity
  message : String
  element : Element
deriving DecidableEq, Repr

/-- The two lines of a diagnostic. -/
def Diagnostic.text (d : Diagnostic) : String :=
  d.severity.label ++ ": " ++ d.message ++ "\n  --> " ++ d.element.place

end FluentBuilders

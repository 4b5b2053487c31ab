import FluentBuilders.Naming
import FluentBuilders.SetterGroups

/-! # Log events

Everything the library logs, as data.  An event has a level, a message and named
fields, which are texts or counts.
-/
namespace FluentBuilders

/-- How important an event is. -/
inductive Level where
  | debug
  | info
  | error
deriving DecidableEq, Repr

/-- The word for a level. -/
def Level.label : Level → String
  | .debug => "debug"
  | .info => "info"
  | .error => "error"

/-- The value of a field. -/
inductive FieldValue where
  | text (value : String)
  | count (value : Nat)
deriving DecidableEq, Repr

/-- What is logged. -/
inductive Event where
  /-- The naming rules were set. -/
  | ready (naming : Naming)
  /-- A round starts. -/
  | started (elements : Nat)
  /-- The elements of a round were sifted. -/
  | sifted (accepted rejected : Nat) (namePrefix : String)
  /-- A diagnostic was reported. -/
  | reported (diagnostic : Diagnostic)
  /-- A round has no setters. -/
  | nothingAccepted
  /-- A setter took the place of an earlier one. -/
  | replaced (replacement : Replacement)
  /-- The setters of a round were grouped. -/
  | grouped (groups : Nat)
  /-- A builder is about to be written. -/
  | writing (target : String) (methods : Nat)
  /-- A builder was written to a file. -/
  | written (path : String) (bytes : Nat)
  /-- A round is over. -/
  | completed (builders failures : Nat)
  /-- The lines of a text were read as elements. -/
  | linesRead (elements : Nat)
  /-- The elements of a file were read. -/
  | fileRead (path : String) (elements : Nat)
deriving DecidableEq, Repr

namespace Event

/-- The level of an event. -/
def level : Event → Level
  | .started _ | .completed _ _ | .fileRead _ _ => .info
  | .reported diagnostic => match diagnostic.severity with
    | .error => .error
  | _ => .debug

/-- The message of an event. -/
def message : Event → String
  | .ready _ => "Initialized builder processor"
  | .started _ => "Processing tagged elements"
  | .sifted _ _ _ => "Validated tagged elements"
  | .reported diagnostic => diagnostic.message
  | .nothingAccepted => "No valid mutators in round"
  | .replaced _ => "Replacing duplicate mutator"
  | .grouped _ => "Grouped mutators by owner"
  | .writing _ _ => "Writing builder"
  | .written _ _ => "Wrote generated source"
  | .completed _ _ => "Round complete"
  | .linesRead _ => "Parsed NDJSON elements"
  | .fileRead _ _ => "Loaded tagged elements"

/-- The fields of an event. -/
def fields : Event → List (String × FieldValue)
  | .ready naming =>
    [("prefix", .text naming.namePrefix), ("builder_suffix", .text naming.builderSuffix)]
  | .started elements => [("elements", .count elements)]
  | .sifted accepted rejected namePrefix =>
    [("valid", .count accepted), ("invalid", .count rejected), ("prefix", .text namePrefix)]
  | .reported diagnostic =>
    [("owner", .text diagnostic.element.owner), ("member", .text diagnostic.element.name),
      ("location", .text (diagnostic.element.location.getD ""))]
  | .nothingAccepted => []
  | .replaced r =>
    [("owner", .text r.owner), ("method", .text r.method), ("previous", .text r.previous),
      ("current", .text r.current)]
  | .grouped groups => [("groups", .count groups)]
  | .writing target methods => [("builder", .text target), ("methods", .count methods)]
  | .written path bytes => [("path", .text path), ("bytes", .count bytes)]
  | .completed builders failures =>
    [("builders", .count builders), ("failures", .count failures)]
  | .linesRead elements => [("elements", .count elements)]
  | .fileRead path elements => [("path", .text path), ("elements", .count elements)]

end Event

/-- What is logged when elements are sifted. -/
def Sifted.event (s : Sifted) (namePrefix : String) : Event :=
  .sifted s.accepted.length s.rejected.length namePrefix

/-- What is logged while setters are grouped. -/
def SetterGroups.events (setters : List Setter) : List Event :=
  (SetterGroups.empty.replacements setters).map .replaced ++
    [.grouped (SetterGroups.ofList setters).size]

end FluentBuilders

import FluentBuilders.Ndjson
import FluentBuilders.Round
import FluentBuilders.Store

/-! # Sessions

A session performs rounds under one set of naming rules, and single writes,
against one host.  The host counts the writes and refuses some of them by their
number; a refused write leaves the store behind the host as it is.
-/
namespace FluentBuilders

/-- A store behind a host that counts the writes. -/
structure Host where
  /-- How many writes there have been. -/
  calls : Nat
  store : Store
deriving DecidableEq, Repr

namespace Host

/-- Nothing has been written. -/
def initial : Host := ⟨0, .empty⟩

/-- Why the host refuses a write. -/
def refusal : FileError := .refused "host: read-only"

/-- The host as a destination: write number `n`, counted from one, is refused
when `refuses n` holds. -/
def destination (refuses : Nat → Bool) : Destination Host :=
  fun host unit =>
    let calls := host.calls + 1
    if refuses calls then ⟨{ host with calls }, [], .error refusal⟩
    else ⟨⟨calls, host.store.write unit⟩, [], .ok ()⟩

/-- Refuses one write, given by its number; none when that is zero. -/
def refusesOnly (number : Nat) : Nat → Bool :=
  fun call => call == number

end Host

namespace Session

/-- What a session does next. -/
inductive Step where
  /-- A round over elements. -/
  | round (elements : List Element)
  /-- A round over the elements of a text. -/
  | lines (text : String)
  /-- A single write. -/
  | write (unit : SourceUnit)
  /-- A look at the store. -/
  | look (target : String)
deriving DecidableEq, Repr

/-- What a step results in. -/
inductive Result where
  | round (diagnostics : List Diagnostic) (outcome : Except RoundError Summary)
  | unread (error : RoundError)
  | written (outcome : Except FileError Unit)
  | found (unit : Option SourceUnit)

/-- A result with the host afterwards and what was logged. -/
structure Outcome where
  host : Host
  log : List Event
  result : Result

variable (naming : Naming) (refuses : Nat → Bool)

/-- A round of a session. -/
def round (host : Host) (elements : List Element) : Outcome :=
  let performed := Round.perform naming (Host.destination refuses) elements host
  ⟨performed.state, performed.log, .round performed.diagnostics performed.outcome⟩

/-- One step of a session. -/
def step (host : Host) : Step → Outcome
  | .round elements => round naming refuses host elements
  | .lines text =>
    match Ndjson.read text with
    | .error e => ⟨host, [], .unread (.reading (.invalidLine e))⟩
    | .ok elements =>
      let outcome := round naming refuses host elements
      { outcome with log := .linesRead elements.length :: outcome.log }
  | .write unit =>
    let answer := Host.destination refuses host unit
    ⟨answer.state, answer.log, .written answer.outcome⟩
  | .look target => ⟨host, [], .found (host.store.get? target)⟩

/-- The outcomes of the steps of a session, in order. -/
def steps : Host → List Step → List Outcome
  | _, [] => []
  | host, s :: rest =>
    let outcome := step naming refuses host s
    outcome :: steps outcome.host rest

/-- The host after the steps of a session. -/
def final (host : Host) (steps : List Step) : Host :=
  steps.foldl (fun host s => (step naming refuses host s).host) host

end Session
end FluentBuilders

import FluentBuilders.Event
import FluentBuilders.FileError
import FluentBuilders.SourceUnit

/-! # Destinations

A destination takes source units.  It is a state and a function that answers
each write with a new state, what it logs and an outcome; nothing else about it
is known to a round.
-/
namespace FluentBuilders

/-- The answer of a destination to a write. -/
structure Answer (σ : Type) where
  state : σ
  log : List Event
  outcome : Except FileError Unit

/-- What takes source units. -/
abbrev Destination (σ : Type) := σ → SourceUnit → Answer σ

end FluentBuilders

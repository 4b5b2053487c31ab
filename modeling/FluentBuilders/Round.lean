import FluentBuilders.BuilderClass
import FluentBuilders.Destination
import FluentBuilders.RoundError

/-! # Rounds

A round sifts its elements, reports the rejected ones, groups the setters by
owner and writes one builder for each owner.  The first builder that cannot be
rendered or written ends it; what was written before stays.  A round depends on
nothing but its naming rules, its elements and its destination, and all
rejections are reported whatever becomes of it (`Round.diagnostics_perform`).
-/
namespace FluentBuilders

/-- What a round that was not given up has produced. -/
structure Summary where
  /-- The rejected elements, all of them reported. -/
  rejected : List Rejection
  /-- The units given to the destination, in order. -/
  written : List SourceUnit
deriving DecidableEq, Repr

/-- What has happened once the builders of some groups have been written, or the
first of them could not be. -/
structure Writing (σ : Type) where
  state : σ
  log : List Event
  outcome : Except RoundError (List SourceUnit)

/-- Writes the builders of a list of groups, up to the first that fails. -/
def writeGroups {σ : Type} (destination : Destination σ) (suffix : String) :
    List SetterGroup → σ → Writing σ
  | [], state => ⟨state, [], .ok []⟩
  | g :: gs, state =>
    match BuilderClass.render g.owner g.members suffix with
    | .error e => ⟨state, [], .error (.owner e)⟩
    | .ok unit =>
      let answer := destination state unit
      let log := .writing unit.target g.members.size :: answer.log
      match answer.outcome with
      | .error cause => ⟨answer.state, log, .error (.unwritten unit.target cause)⟩
      | .ok () =>
        let rest := writeGroups destination suffix gs answer.state
        ⟨rest.state, log ++ rest.log, rest.outcome.map (unit :: ·)⟩

/-- What a round leaves behind. -/
structure Round (σ : Type) where
  /-- The destination afterwards. -/
  state : σ
  log : List Event
  /-- The diagnostics that were reported, whether or not the round was given up. -/
  diagnostics : List Diagnostic
  outcome : Except RoundError Summary

namespace Round

variable {σ : Type}

/-- One round over a list of elements. -/
def perform (naming : Naming) (destination : Destination σ) (elements : List Element)
    (state : σ) : Round σ :=
  let sifted := sift naming.namePrefix elements
  let diagnostics := sifted.rejected.map Rejection.diagnostic
  let opening := .started elements.length :: sifted.event naming.namePrefix ::
    diagnostics.map .reported
  if sifted.accepted.isEmpty then
    ⟨state, opening ++ [.nothingAccepted], diagnostics, .ok ⟨sifted.rejected, []⟩⟩
  else
    let groups := SetterGroups.ofList sifted.accepted
    let writing := writeGroups destination naming.builderSuffix groups.toList state
    let log := opening ++ SetterGroups.events sifted.accepted ++ writing.log
    match writing.outcome with
    | .error e => ⟨writing.state, log, diagnostics, .error e⟩
    | .ok written =>
      ⟨writing.state, log ++ [.completed written.length sifted.rejected.length], diagnostics,
        .ok ⟨sifted.rejected, written⟩⟩

/-- Every rejected element is reported, whatever becomes of the round. -/
theorem diagnostics_perform (naming : Naming) (destination : Destination σ)
    (elements : List Element) (state : σ) :
    (perform naming destination elements state).diagnostics =
      (sift naming.namePrefix elements).rejected.map Rejection.diagnostic := by
  unfold perform
  dsimp only
  split
  · rfl
  · split <;> rfl

end Round
end FluentBuilders

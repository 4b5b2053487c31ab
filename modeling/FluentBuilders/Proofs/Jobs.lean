import FluentBuilders.Proofs.RoundOutcome

/-! # Runs of jobs

A destination is put to use by single writes and by rounds, in any order and under
any naming rules.  Whatever the jobs are and whatever is refused, a run does to the
destination what the units that were given to it do, one after the other
(`Destination.run_eq_after`); so what holds after any sequence of writes holds after
any run. -/
namespace FluentBuilders

/-- What is done with a destination. -/
inductive Job where
  /-- A unit is written. -/
  | write (unit : SourceUnit)
  /-- A round is performed. -/
  | round (naming : Naming) (elements : List Element)

namespace Destination

variable {σ : Type} (d : Destination σ)

/-- The state after a job. -/
def perform (state : σ) : Job → σ
  | .write unit => (d state unit).state
  | .round naming elements => (Round.perform naming d elements state).state

/-- The state after a run of jobs. -/
def run (jobs : List Job) (state : σ) : σ :=
  jobs.foldl d.perform state

/-- The units that are given in a run, in order, whatever becomes of them. -/
def calls (jobs : List Job) (state : σ) : List SourceUnit :=
  (d.recording.run jobs (state, [])).2

/-- A job gives some units and does nothing else to the destination. -/
theorem perform_recording (job : Job) (state : σ) : ∃ units,
    d.perform state job = d.after state units ∧ ∀ record,
      d.recording.perform (state, record) job = (d.after state units, record ++ units) := by
  cases job with
  | write unit => exact ⟨[unit], rfl, fun _ => rfl⟩
  | round naming elements =>
    have hstate := Round.state_perform naming d elements state
    rw [state_writeGroups] at hstate
    refine ⟨_, hstate, fun record => ?_⟩
    rw [perform, Round.state_perform, writeGroups_recording, state_writeGroups]

theorem run_recording (jobs : List Job) (state : σ) : ∃ units,
    d.run jobs state = d.after state units ∧ ∀ record,
      d.recording.run jobs (state, record) = (d.after state units, record ++ units) := by
  induction jobs generalizing state with
  | nil => exact ⟨[], rfl, fun record => by rw [List.append_nil]; rfl⟩
  | cons job jobs ih =>
    obtain ⟨first, hfirst, hfirstRecord⟩ := d.perform_recording job state
    obtain ⟨rest, hrest, hrestRecord⟩ := ih (d.after state first)
    refine ⟨first ++ rest, ?_, fun record => ?_⟩
    · rw [after_append, ← hrest, ← hfirst]
      rfl
    · rw [after_append, ← List.append_assoc, ← hrestRecord, ← hfirstRecord]
      rfl

/-- **A run is the writing of the units given in it.** -/
theorem run_eq_after (jobs : List Job) (state : σ) :
    d.run jobs state = d.after state (d.calls jobs state) := by
  obtain ⟨units, hrun, hrecord⟩ := d.run_recording jobs state
  rw [calls, hrecord, List.nil_append, hrun]

end Destination
end FluentBuilders

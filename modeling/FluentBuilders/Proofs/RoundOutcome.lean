import FluentBuilders.Proofs.Delivery
import FluentBuilders.Proofs.Grouping
import FluentBuilders.Session

/-! # What becomes of a round

A round is told by the elements that qualify as setters: their owners by first
occurrence and their members by last occurrence (`Grouped`).  To a destination that
takes everything, a round gives one builder for each owner, if all owners are well
formed, and is given up otherwise (`Round.perform_of_accepts`).  To any other
destination it gives a part of the same builders, up to the first owner that is not
well formed or the first builder that is refused; what was taken before stays, and
the rejected elements are reported before the first builder is announced
(`Round.course_perform`).
-/
namespace FluentBuilders

/-- A host passes on to its store what it does not refuse. -/
theorem Host.keptIn_store (refuses : Nat → Bool) :
    (Host.destination refuses).KeptIn Host.store := by
  intro host unit
  unfold Host.destination
  dsimp only
  split <;> rfl

namespace Round

variable {σ : Type}

/-- The units that a round gives to its destination, in order. -/
def calls (naming : Naming) (d : Destination σ) (elements : List Element) (state : σ) :
    List SourceUnit :=
  (perform naming d.recording elements (state, [])).state.2

/-- The groups of a round. -/
def groups (naming : Naming) (elements : List Element) : List SetterGroup :=
  (SetterGroups.ofList (sift naming.namePrefix elements).accepted).toList

/-! ## A round as the writing of its groups -/

section

variable (naming : Naming) (d : Destination σ) (elements : List Element) (state : σ)

/-- A round without setters has no groups. -/
theorem groups_of_isEmpty (h : (sift naming.namePrefix elements).accepted.isEmpty = true) :
    groups naming elements = [] := by
  rw [groups, List.isEmpty_iff.mp h]
  rfl

theorem state_perform :
    (perform naming d elements state).state =
      (writeGroups d naming.builderSuffix (groups naming elements) state).state := by
  unfold perform
  dsimp only
  split
  · next h => rw [groups_of_isEmpty naming elements h, writeGroups]
  · split <;> rfl

theorem outcome_perform :
    (perform naming d elements state).outcome =
      (writeGroups d naming.builderSuffix (groups naming elements) state).outcome.map
        fun written => ⟨(sift naming.namePrefix elements).rejected, written⟩ := by
  unfold perform
  dsimp only
  split
  · next h =>
    rw [groups_of_isEmpty naming elements h, writeGroups]
    rfl
  · split
    · next e he => rw [groups, he]; rfl
    · next written he => rw [groups, he]; rfl

theorem calls_eq_given :
    calls naming d elements state =
      given d naming.builderSuffix (groups naming elements) state := by
  rw [calls, state_perform, writeGroups_recording, List.nil_append]

/-- What a round logs in front of its grouping. -/
def opening : List Event :=
  [.started elements.length, (sift naming.namePrefix elements).event naming.namePrefix] ++
    (sift naming.namePrefix elements).rejected.map fun r => .reported r.diagnostic

/-- What a round logs about its grouping. -/
def grouping : List Event :=
  if (sift naming.namePrefix elements).accepted.isEmpty then [.nothingAccepted]
  else SetterGroups.events (sift naming.namePrefix elements).accepted

/-- What a round logs at its end. -/
def closing (outcome : Except RoundError Summary) : List Event :=
  match outcome with
  | .error _ => []
  | .ok summary =>
    if (sift naming.namePrefix elements).accepted.isEmpty then []
    else [.completed summary.written.length summary.rejected.length]

/-- **The log of a round.** -/
theorem log_eq :
    (perform naming d elements state).log =
      opening naming elements ++ grouping naming elements ++
        (writeGroups d naming.builderSuffix (groups naming elements) state).log ++
        closing naming elements (perform naming d elements state).outcome := by
  unfold perform opening grouping closing
  dsimp only
  split
  · next h =>
    rw [groups_of_isEmpty naming elements h, writeGroups]
    simp
  · next h =>
    split
    · next e he => simp [groups]
    · next written he => simp [groups]

theorem not_writing_of_mem_grouping {event : Event} (h : event ∈ grouping naming elements)
    (target : String) (methods : Nat) : event ≠ .writing target methods := by
  intro heq
  subst heq
  unfold grouping at h
  split at h
  · simp at h
  · simp [SetterGroups.events] at h

/-- **All rejections are reported before anything is announced.** -/
theorem log_perform : ∃ grouping closing,
    (∀ event ∈ grouping, ∀ target methods, event ≠ .writing target methods) ∧
    (perform naming d elements state).log =
      [.started elements.length, (sift naming.namePrefix elements).event naming.namePrefix] ++
        (perform naming d elements state).diagnostics.map .reported ++ grouping ++
        (writeGroups d naming.builderSuffix (groups naming elements) state).log ++ closing := by
  refine ⟨grouping naming elements,
    closing naming elements (perform naming d elements state).outcome,
    fun _ => not_writing_of_mem_grouping naming elements, ?_⟩
  rw [diagnostics_perform, List.map_map]
  exact log_eq naming d elements state

end

/-- The diagnostics of a round, from its elements. -/
theorem diagnostics_eq_map (naming : Naming) (d : Destination σ) (elements : List Element)
    (state : σ) :
    (perform naming d elements state).diagnostics =
      (elements.filter fun e => ¬ e.Qualifies naming.namePrefix).map fun e =>
        ⟨.error, rejectionMessage, e⟩ := by
  rw [diagnostics_perform, rejected_eq_map, List.map_map]
  rfl

/-! ## Every destination -/

/-- **The course of a round**, to a destination that refuses what it likes. -/
theorem course_perform (naming : Naming) (d : Destination σ) (elements : List Element)
    (state : σ) :
    let round := perform naming d elements state
    let given := calls naming d elements state
    ∃ groups, Grouped (elements.filter fun e => e.Qualifies naming.namePrefix) groups ∧
      Course d naming.builderSuffix state groups given (round.outcome.map Summary.written) ∧
      round.state = d.after state given ∧
      round.diagnostics =
        (elements.filter fun e => ¬ e.Qualifies naming.namePrefix).map (fun e =>
          ⟨.error, rejectionMessage, e⟩) ∧
      (∃ grouping closing,
        (∀ event ∈ grouping, ∀ target methods, event ≠ .writing target methods) ∧
        round.log =
          [.started elements.length, (sift naming.namePrefix elements).event naming.namePrefix] ++
            round.diagnostics.map .reported ++ grouping ++
            d.announced state (given.zip (groups.map fun g => g.members.size)) ++ closing) ∧
      ∀ store : σ → Store, d.KeptIn store →
        store round.state = (d.taken state given).foldl Store.write (store state) := by
  intro round given
  have hgiven : given =
      FluentBuilders.given d naming.builderSuffix (groups naming elements) state :=
    calls_eq_given naming d elements state
  have hstate : round.state = d.after state given := by
    rw [hgiven, ← state_writeGroups]
    exact state_perform naming d elements state
  refine ⟨groups naming elements, grouped_ofList naming.namePrefix elements, ?_, hstate,
    diagnostics_eq_map naming d elements state, ?_, ?_⟩
  · have hcourse := course_writeGroups d naming.builderSuffix (groups naming elements) state
    have houtcome : round.outcome.map Summary.written =
        (writeGroups d naming.builderSuffix (groups naming elements) state).outcome := by
      rw [outcome_perform naming d elements state]
      cases (writeGroups d naming.builderSuffix (groups naming elements) state).outcome <;> rfl
    rw [hgiven, houtcome]
    exact hcourse
  · rw [hgiven, ← log_writeGroups]
    exact log_perform naming d elements state
  · intro store hstore
    rw [hstate]
    exact Destination.store_after hstore state given

/-- A host that refuses the second write keeps what was taken before it. -/
theorem course_perform_second_refused :
    let d := Host.destination (Host.refusesOnly 2)
    let elements : List Element :=
      [⟨"a.One", "setX", ["int"], none⟩, ⟨"a.Two", "getX", [], some "Two.java:7"⟩,
        ⟨"a.Two", "setX", ["int"], none⟩, ⟨"a.", "setX", ["int"], none⟩,
        ⟨"a.One", "setX", ["long"], none⟩]
    d.KeptIn Host.store ∧
      (perform .standard d elements .initial).state.store =
        (d.taken .initial (calls .standard d elements .initial)).foldl Store.write .empty := by
  intro d elements
  have hkept := Host.keptIn_store (Host.refusesOnly 2)
  obtain ⟨_, _, _, _, _, _, hstore⟩ := course_perform .standard d elements .initial
  exact ⟨hkept, hstore Host.store hkept⟩

/-! ## Destinations that take everything -/

theorem target_injective (suffix : String) :
    Function.Injective fun owner : String => owner ++ suffix := fun _ _ h =>
  (String.append_left_inj suffix).mp h

/-- The builders of different owners have different targets. -/
theorem nodup_targets {setters : List Element} {groups : List SetterGroup} {suffix : String}
    {units : List SourceUnit} (hgrouped : Grouped setters groups)
    (hrendered : Rendered suffix groups units) : (units.map SourceUnit.target).Nodup := by
  have h := hgrouped.owners.nodup.map (target_injective suffix)
  rw [List.map_map] at h
  rw [hrendered.targets]
  exact h

/-- **A round to a destination that takes everything.** -/
theorem perform_of_accepts (naming : Naming) {d : Destination σ} {state : σ}
    (haccepts : d.Accepts state) (elements : List Element) :
    let setters := elements.filter fun e => e.Qualifies naming.namePrefix
    let round := perform naming d elements state
    ((∃ summary, round.outcome = .ok summary) ↔
      ∀ e ∈ setters, ∃ name, DottedName.ofOwner e.owner = .ok name) ∧
    ∀ summary, round.outcome = .ok summary →
      (∃ groups, Grouped setters groups ∧
        Rendered naming.builderSuffix groups summary.written ∧
        summary.written.map SourceUnit.target =
          groups.map fun g => g.owner ++ naming.builderSuffix) ∧
      (summary.written.map SourceUnit.target).Nodup ∧
      calls naming d elements state = summary.written ∧
      summary.rejected = (elements.filter fun e => ¬ e.Qualifies naming.namePrefix).map (fun e =>
        ⟨e, rejectionMessage⟩) ∧
      round.diagnostics = summary.rejected.map fun r => ⟨.error, r.message, r.element⟩ := by
  intro setters round
  have hgrouped : Grouped setters (groups naming elements) :=
    grouped_ofList naming.namePrefix elements
  have hcourse := course_writeGroups d naming.builderSuffix (groups naming elements) state
  rw [← calls_eq_given] at hcourse
  have houtcome : round.outcome = _ := outcome_perform naming d elements state
  generalize (writeGroups d naming.builderSuffix (groups naming elements) state).outcome = outcome
    at hcourse houtcome
  cases hcourse with
  | completed rendered taken =>
    rw [houtcome]
    refine ⟨⟨fun _ e he => ?_, fun _ => ⟨_, rfl⟩⟩, fun summary hsummary => ?_⟩
    · obtain ⟨g, hg, hgo⟩ := hgrouped.exists_group he
      exact hgo ▸ rendered.owner_ok g hg
    · injection hsummary with hsummary
      subst hsummary
      exact ⟨⟨_, hgrouped, rendered, rendered.targets⟩, nodup_targets hgrouped rendered, rfl,
        rejected_eq_map _ _, diagnostics_perform naming d elements state⟩
  | @malformed front back g fault split rendered taken owner =>
    rw [houtcome]
    have hg : g ∈ groups naming elements := by
      rw [split]
      exact List.mem_append_right _ List.mem_cons_self
    -- the owner that is not well formed is that of a setter
    obtain ⟨e, he, heo⟩ := hgrouped.exists_element hg
    refine ⟨⟨fun ⟨_, h⟩ => by simp [Except.map] at h, fun h => ?_⟩,
      fun _ h => by simp [Except.map] at h⟩
    obtain ⟨name, hname⟩ := h e he
    rw [heo, owner] at hname
    simp at hname
  | refused split last rendered builder taken refusal =>
    -- nothing is refused by this destination
    rw [haccepts] at refusal
    simp at refusal

/-- A store takes everything. -/
theorem perform_of_accepts_store :
    let elements : List Element :=
      [⟨"a.One", "setX", ["int"], none⟩, ⟨"Two", "setX", ["int"], none⟩,
        ⟨"a.", "setX", ["int", "int"], some "A.java:7"⟩, ⟨"a.One", "setX", ["long"], none⟩]
    Store.destination.Accepts .empty ∧
      ∃ summary, (perform .standard Store.destination elements .empty).outcome = .ok summary ∧
        calls .standard Store.destination elements .empty = summary.written ∧
        summary.rejected =
          [⟨⟨"a.", "setX", ["int", "int"], some "A.java:7"⟩, rejectionMessage⟩] := by
  intro elements
  have haccepts : Store.destination.Accepts .empty := fun _ _ => rfl
  obtain ⟨hok, hsummary⟩ := perform_of_accepts .standard haccepts elements
  have howners : ∀ e ∈ elements.filter fun e => e.Qualifies Naming.standard.namePrefix,
      e.owner = "a.One" ∨ e.owner = "Two" := by decide
  obtain ⟨summary, hs⟩ := hok.mpr fun e he => by
    rcases howners e he with h | h
    · exact ⟨⟨some "a", "One"⟩, by rw [h]; decide⟩
    · exact ⟨⟨none, "Two"⟩, by rw [h]; decide⟩
  obtain ⟨-, -, hcalls, hrejected, -⟩ := hsummary summary hs
  exact ⟨haccepts, summary, hs, hcalls, hrejected⟩

end Round
end FluentBuilders

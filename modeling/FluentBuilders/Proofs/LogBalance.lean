import FluentBuilders.Directory
import FluentBuilders.Proofs.Replacements
import FluentBuilders.Proofs.RoundBuilders

/-! # The log of a round balances

What a round logs itself is its log when its destination answers alike and logs nothing
(`Destination.quiet`); a destination adds events of its own in between and takes none
away (`Round.sublist_log`, `Round.perm_log`).  In a round's own log every element is
accounted for (`Balanced`): it is rejected and reported, or it is a setter and then a
method that is announced or a setter that was replaced, unless the round was given up.
-/
namespace FluentBuilders

/-! ## Reading events -/

namespace Event

/-- The number of elements at the start of a round. -/
def started? : Event → Option Nat
  | .started elements => some elements
  | _ => none

/-- The numbers of setters and of rejected elements. -/
def sifted? : Event → Option (Nat × Nat)
  | .sifted accepted rejected _ => some (accepted, rejected)
  | _ => none

/-- A replacement. -/
def replaced? : Event → Option Replacement
  | .replaced replacement => some replacement
  | _ => none

/-- The number of groups. -/
def grouped? : Event → Option Nat
  | .grouped groups => some groups
  | _ => none

/-- The target of a builder and the number of its methods. -/
def writing? : Event → Option (String × Nat)
  | .writing target methods => some (target, methods)
  | _ => none

/-- The numbers of builders and of failures at the end of a round. -/
def completed? : Event → Option (Nat × Nat)
  | .completed builders failures => some (builders, failures)
  | _ => none

/-- A builder was written to a file. -/
def isWritten : Event → Bool
  | .written _ _ => true
  | _ => false

end Event

/-! ## A destination that logs nothing -/

/-- What is logged about a unit and the number of its methods before it is given. -/
def announcement (p : SourceUnit × Nat) : Event := .writing p.1.target p.2

namespace Destination

variable {σ : Type} (d : Destination σ)

/-- A destination that answers alike and logs nothing. -/
def quiet : Destination σ := fun state unit => { d state unit with log := [] }

/-- What a destination logs itself while some units are given in order. -/
def logged : σ → List SourceUnit → List Event
  | _, [] => []
  | state, unit :: rest => (d state unit).log ++ logged (d state unit).state rest

theorem announced_quiet (state : σ) (units : List (SourceUnit × Nat)) :
    d.quiet.announced state units = units.map announcement := by
  induction units generalizing state with
  | nil => rfl
  | cons p rest ih => exact congrArg (_ :: ·) (ih _)

theorem sublist_announced (state : σ) (units : List (SourceUnit × Nat)) :
    (units.map announcement).Sublist (d.announced state units) := by
  induction units generalizing state with
  | nil => exact List.Sublist.slnil
  | cons p rest ih => exact ((ih _).trans (List.sublist_append_right _ _)).cons_cons _

/-- What is announced, and what a destination logs itself. -/
theorem perm_announced (state : σ) (units : List (SourceUnit × Nat)) :
    (d.announced state units).Perm
      (units.map announcement ++ d.logged state (units.map Prod.fst)) := by
  induction units generalizing state with
  | nil => exact List.Perm.nil
  | cons p rest ih =>
    refine List.Perm.cons _ (((ih (d state p.1).state).append_left (d state p.1).log).trans ?_)
    show ((d state p.1).log ++ (rest.map announcement ++ _)).Perm
      (rest.map announcement ++ ((d state p.1).log ++ _))
    rw [← List.append_assoc, ← List.append_assoc]
    exact List.perm_append_comm.append_right _

end Destination

/-- A host logs nothing. -/
theorem Host.isWritten_of_mem_log (refuses : Nat → Bool) (host : Host) (unit : SourceUnit) :
    ∀ event ∈ (Host.destination refuses host unit).log, event.isWritten = true := by
  have hnil : (Host.destination refuses host unit).log = [] := by
    unfold Host.destination
    dsimp only
    split <;> rfl
  rw [hnil]
  exact fun event hevent => absurd hevent List.not_mem_nil

/-- A directory logs only the files it writes. -/
theorem Directory.isWritten_of_mem_log (root : String) (s : FileSystem) (unit : SourceUnit) :
    ∀ event ∈ (Directory.destination root s unit).log, event.isWritten = true := by
  intro event hevent
  unfold Directory.destination at hevent
  split at hevent
  · simp at hevent
  · unfold Directory.place at hevent
    dsimp only at hevent
    split at hevent
    · simp at hevent
    · split at hevent
      · simp at hevent
      · rw [List.mem_singleton.mp hevent]
        rfl

/-- What a destination logs makes no difference to what it is given and what comes of it. -/
theorem writeGroups_quiet {σ : Type} (d : Destination σ) (suffix : String)
    (groups : List SetterGroup) (state : σ) :
    given d.quiet suffix groups state = given d suffix groups state ∧
      (writeGroups d.quiet suffix groups state).outcome =
        (writeGroups d suffix groups state).outcome := by
  induction groups generalizing state with
  | nil => exact ⟨rfl, rfl⟩
  | cons g gs ih =>
    rw [given, given, writeGroups, writeGroups]
    cases BuilderClass.render g.owner g.members suffix with
    | error e => exact ⟨rfl, rfl⟩
    | ok unit =>
      have hquiet : d.quiet state unit = { d state unit with log := [] } := rfl
      dsimp only
      rw [hquiet]
      cases (d state unit).outcome with
      | error cause => exact ⟨rfl, rfl⟩
      | ok _ =>
        obtain ⟨hgiven, houtcome⟩ := ih (d state unit).state
        exact ⟨congrArg (unit :: ·) hgiven, congrArg (Except.map (unit :: ·)) houtcome⟩

/-! ## The balance -/

/-- **The log of a round balances**, told by the elements with the prefix of a setter, the
groups, the units that were given to the destination and the outcome.  Every element is a
setter or rejected (`elements`), and the rejected ones are the errors (`errors`), all of
them logged before a builder is announced (`errors_first`).  Every unit that is given is
announced (`announced`).  A setter is a member of a group or was replaced (`members`) by
the next one with its owner and name (`replaced`).  The round is completed when there were
setters and it was not given up (`completed_iff`); then every group has its builder written
(`completed`), and a setter is an announced method or was replaced (`methods`). -/
structure Balanced (namePrefix : String) (es : List Element) (groups : List SetterGroup)
    (calls : List SourceUnit) (outcome : Except RoundError Summary) (log : List Event) :
    Prop where
  started : log.filterMap Event.started? = [es.length]
  sifted : log.filterMap Event.sifted? = [((qualifying namePrefix es).length,
    (es.filter fun e => ¬ e.Qualifies namePrefix).length)]
  elements : es.length = (qualifying namePrefix es).length +
    (es.filter fun e => ¬ e.Qualifies namePrefix).length
  errors : log.countP (fun event => event.level = .error) =
    (es.filter fun e => ¬ e.Qualifies namePrefix).length
  errors_first : ∃ front back, log = front ++ back ∧
    (∀ event ∈ front, event.writing? = none) ∧ ∀ event ∈ back, event.level ≠ .error
  announced : (log.filterMap Event.writing?).map Prod.fst = calls.map SourceUnit.target
  replaced : log.filterMap Event.replaced? = repeats [] (qualifying namePrefix es)
  members : (log.filterMap Event.replaced?).length + SetterGroups.memberCount groups =
    (qualifying namePrefix es).length
  completed_iff : (∃ builders failures, (builders, failures) ∈ log.filterMap Event.completed?) ↔
    (∃ summary, outcome = .ok summary) ∧ qualifying namePrefix es ≠ []
  completed : ∀ builders failures, (builders, failures) ∈ log.filterMap Event.completed? →
    failures = (es.filter fun e => ¬ e.Qualifies namePrefix).length ∧
    groups.length = builders ∧ log.filterMap Event.grouped? = [builders] ∧
    (log.filterMap Event.writing?).length = builders ∧
    ∃ summary, outcome = .ok summary ∧ summary.written.length = builders
  methods : ∀ builders failures, (builders, failures) ∈ log.filterMap Event.completed? →
    ((log.filterMap Event.writing?).map Prod.snd).sum +
      (log.filterMap Event.replaced?).length = (qualifying namePrefix es).length

/-! ### Written files -/

theorem filterMap_filter_isWritten {γ : Type} {view : Event → Option γ}
    (hwritten : ∀ path bytes, view (.written path bytes) = none) (log : List Event) :
    (log.filter fun event => !event.isWritten).filterMap view = log.filterMap view := by
  rw [List.filterMap_filter]
  refine congrArg (List.filterMap · log) (funext fun event => ?_)
  cases event with
  | written path bytes => exact (hwritten path bytes).symm
  | _ => rfl

/-- A log that balances without the files that were written balances with them. -/
theorem balanced_filter_isWritten {namePrefix : String} {es : List Element}
    {groups : List SetterGroup} {calls : List SourceUnit} {outcome : Except RoundError Summary}
    {log : List Event}
    (h : Balanced namePrefix es groups calls outcome (log.filter fun event => !event.isWritten)) :
    Balanced namePrefix es groups calls outcome log := by
  have hstarted : _ = log.filterMap Event.started? := filterMap_filter_isWritten (fun _ _ => rfl) _
  have hsifted : _ = log.filterMap Event.sifted? := filterMap_filter_isWritten (fun _ _ => rfl) _
  have hreplaced : _ = log.filterMap Event.replaced? :=
    filterMap_filter_isWritten (fun _ _ => rfl) _
  have hgrouped : _ = log.filterMap Event.grouped? := filterMap_filter_isWritten (fun _ _ => rfl) _
  have hwriting : _ = log.filterMap Event.writing? := filterMap_filter_isWritten (fun _ _ => rfl) _
  have hcompleted : _ = log.filterMap Event.completed? :=
    filterMap_filter_isWritten (fun _ _ => rfl) _
  have herrors : (log.filter fun event => !event.isWritten).countP
      (fun event => event.level = .error) = log.countP fun event => event.level = .error := by
    rw [List.countP_filter]
    refine congrArg (List.countP · log) (funext fun event => ?_)
    cases event with
    | written path bytes => rfl
    | _ => exact Bool.and_true _
  obtain ⟨started, sifted, elements, errors, errors_first, announced, replaced, members,
    completed_iff, completed, methods⟩ := h
  rw [hstarted] at started
  rw [hsifted] at sifted
  rw [herrors] at errors
  rw [hwriting] at announced
  rw [hreplaced] at replaced members
  rw [hcompleted] at completed_iff
  simp only [hcompleted, hgrouped, hwriting] at completed
  simp only [hcompleted, hwriting, hreplaced] at methods
  refine ⟨started, sifted, elements, errors, ?_, announced, replaced, members, completed_iff,
    completed, methods⟩
  -- the files that were written are put back
  obtain ⟨front, back, hlog, hfront, hback⟩ := errors_first
  obtain ⟨front', back', rfl, rfl, rfl⟩ := List.filter_eq_append_iff.mp hlog
  refine ⟨front', back', rfl, fun event hevent => ?_, fun event hevent => ?_⟩
  · cases event with
    | written path bytes => rfl
    | _ => exact hfront _ (List.mem_filter.mpr ⟨hevent, rfl⟩)
  · cases event with
    | written path bytes => exact fun h => Level.noConfusion h
    | _ => exact hback _ (List.mem_filter.mpr ⟨hevent, rfl⟩)

namespace Round

variable {σ : Type} (naming : Naming) (d : Destination σ) (es : List Element) (state : σ)

/-- The units that a round gives to its destination, with the numbers of their methods. -/
def announcements : List (SourceUnit × Nat) :=
  (calls naming d es state).zip ((groups naming es).map fun g => g.members.size)

theorem map_fst_announcements :
    (announcements naming d es state).map Prod.fst = calls naming d es state := by
  refine List.map_fst_zip ?_
  rw [calls_eq_given, List.length_map]
  exact length_given_le d naming.builderSuffix (groups naming es) state

/-- The log of a round, with what it announces. -/
theorem log_eq_announced :
    (perform naming d es state).log =
      opening naming es ++ grouping naming es ++
        d.announced state (announcements naming d es state) ++
        closing naming es (perform naming d es state).outcome := by
  rw [log_eq, log_writeGroups, announcements, calls_eq_given]

/-- **What a round logs itself.** -/
theorem log_quiet :
    (perform naming d.quiet es state).log =
      opening naming es ++ grouping naming es ++
        (announcements naming d es state).map announcement ++
        closing naming es (perform naming d es state).outcome := by
  obtain ⟨hgiven, houtcome⟩ := writeGroups_quiet d naming.builderSuffix (groups naming es) state
  have hcalls : announcements naming d.quiet es state = announcements naming d es state := by
    rw [announcements, announcements, calls_eq_given, calls_eq_given, hgiven]
  rw [log_eq_announced, Destination.announced_quiet, hcalls, outcome_perform, outcome_perform,
    houtcome]

theorem log_quiet_eq_opening_append :
    (perform naming d.quiet es state).log =
      opening naming es ++ (grouping naming es ++
        (announcements naming d es state).map announcement ++
        closing naming es (perform naming d es state).outcome) := by
  rw [log_quiet]
  simp only [List.append_assoc]

/-- What a round logs itself is logged with every destination, in the same order. -/
theorem sublist_log :
    (perform naming d.quiet es state).log.Sublist (perform naming d es state).log := by
  rw [log_quiet, log_eq_announced]
  exact ((List.Sublist.refl _).append (d.sublist_announced state _)).append (List.Sublist.refl _)

/-- Everything else is logged by the destination. -/
theorem perm_log :
    (perform naming d es state).log.Perm
      ((perform naming d.quiet es state).log ++ d.logged state (calls naming d es state)) := by
  have hperm := d.perm_announced state (announcements naming d es state)
  rw [map_fst_announcements] at hperm
  rw [log_quiet, log_eq_announced]
  refine ((hperm.append_left _).append_right _).trans ?_
  simp only [List.append_assoc]
  exact ((List.perm_append_comm.append_left _).append_left _).append_left _

/-! ## Reading a round's own log -/

theorem replacements_accepted :
    SetterGroups.empty.replacements (sift naming.namePrefix es).accepted =
      repeats [] (qualifying naming.namePrefix es) := by
  rw [accepted_eq_map]
  exact SetterGroups.replacements_asSetter [] (qualifying naming.namePrefix es)

theorem isEmpty_accepted :
    (sift naming.namePrefix es).accepted.isEmpty = (qualifying naming.namePrefix es).isEmpty := by
  rw [accepted_eq_map]
  exact List.isEmpty_map

theorem length_accepted :
    (sift naming.namePrefix es).accepted.length = (qualifying naming.namePrefix es).length := by
  rw [accepted_eq_map, List.length_map]
  rfl

theorem length_rejected :
    (sift naming.namePrefix es).rejected.length =
      (es.filter fun e => ¬ e.Qualifies naming.namePrefix).length := by
  rw [rejected_eq_map, List.length_map]

/-- What a round logs about its grouping: the replacements and the number of groups. -/
theorem grouping_eq :
    grouping naming es = (repeats [] (qualifying naming.namePrefix es)).map .replaced ++
      if (qualifying naming.namePrefix es).isEmpty then [.nothingAccepted]
      else [.grouped (groups naming es).length] := by
  rw [grouping, isEmpty_accepted, ← replacements_accepted]
  cases hempty : (qualifying naming.namePrefix es).isEmpty with
  | true =>
    rw [← isEmpty_accepted, List.isEmpty_iff] at hempty
    rw [hempty]
    rfl
  | false => exact congrArg (fun n => _ ++ [Event.grouped n]) Array.length_toList.symm

/-- The numbers that a round logs at its end. -/
def ended (outcome : Except RoundError Summary) : List (Nat × Nat) :=
  match outcome with
  | .error _ => []
  | .ok summary =>
    if (qualifying naming.namePrefix es).isEmpty then []
    else [(summary.written.length, summary.rejected.length)]

theorem closing_eq (outcome : Except RoundError Summary) :
    closing naming es outcome = (ended naming es outcome).map fun p => .completed p.1 p.2 := by
  cases outcome with
  | error e => rfl
  | ok summary =>
    rw [closing, ended, isEmpty_accepted]
    cases (qualifying naming.namePrefix es).isEmpty <;> rfl

/-- **A view of a round's own log**, kind by kind of event. -/
theorem filterMap_log_quiet {γ : Type} (view : Event → Option γ)
    (hreported : ∀ diagnostic, view (.reported diagnostic) = none) :
    (perform naming d.quiet es state).log.filterMap view =
      (view (.started es.length)).toList ++
        (view (.sifted (qualifying naming.namePrefix es).length
          (es.filter fun e => ¬ e.Qualifies naming.namePrefix).length naming.namePrefix)).toList ++
        ((repeats [] (qualifying naming.namePrefix es)).filterMap fun r => view (.replaced r)) ++
        (if (qualifying naming.namePrefix es).isEmpty then (view .nothingAccepted).toList
          else (view (.grouped (groups naming es).length)).toList) ++
        ((announcements naming d es state).filterMap fun p => view (announcement p)) ++
        ((ended naming es (perform naming d es state).outcome).filterMap fun p =>
          view (.completed p.1 p.2)) := by
  have hpair : ∀ a b : Event, [a, b].filterMap view = (view a).toList ++ (view b).toList := by
    intro a b
    cases ha : view a <;> cases hb : view b <;> simp [ha, hb]
  have hopening : (opening naming es).filterMap view = (view (.started es.length)).toList ++
      (view (.sifted (qualifying naming.namePrefix es).length
        (es.filter fun e => ¬ e.Qualifies naming.namePrefix).length naming.namePrefix)).toList := by
    have hnone : ((sift naming.namePrefix es).rejected.map fun r =>
        Event.reported r.diagnostic).filterMap view = [] := by
      rw [List.filterMap_map, List.filterMap_eq_nil_iff]
      exact fun r _ => hreported r.diagnostic
    rw [opening, List.filterMap_append, hnone, List.append_nil, hpair, Sifted.event,
      length_accepted, length_rejected]
  have hgrouping : (grouping naming es).filterMap view =
      ((repeats [] (qualifying naming.namePrefix es)).filterMap fun r => view (.replaced r)) ++
        if (qualifying naming.namePrefix es).isEmpty then (view .nothingAccepted).toList
          else (view (.grouped (groups naming es).length)).toList := by
    have hsingle : ∀ a : Event, [a].filterMap view = (view a).toList := by
      intro a
      cases ha : view a <;> simp [ha]
    rw [grouping_eq, List.filterMap_append, List.filterMap_map]
    refine congrArg (_ ++ ·) ?_
    split
    · exact hsingle _
    · exact hsingle _
  rw [log_quiet, List.filterMap_append, List.filterMap_append, List.filterMap_append, hopening,
    hgrouping, closing_eq, List.filterMap_map, List.filterMap_map]
  simp only [List.append_assoc]
  rfl

section

variable {naming d es state}

theorem filterMap_started? :
    (perform naming d.quiet es state).log.filterMap Event.started? = [es.length] := by
  rw [filterMap_log_quiet naming d es state Event.started? fun _ => rfl]
  simp [Event.started?, announcement]

theorem filterMap_sifted? :
    (perform naming d.quiet es state).log.filterMap Event.sifted? =
      [((qualifying naming.namePrefix es).length,
        (es.filter fun e => ¬ e.Qualifies naming.namePrefix).length)] := by
  rw [filterMap_log_quiet naming d es state Event.sifted? fun _ => rfl]
  simp [Event.sifted?, announcement]

theorem filterMap_replaced? :
    (perform naming d.quiet es state).log.filterMap Event.replaced? =
      repeats [] (qualifying naming.namePrefix es) := by
  rw [filterMap_log_quiet naming d es state Event.replaced? fun _ => rfl]
  simp [Event.replaced?, announcement]

theorem filterMap_grouped? :
    (perform naming d.quiet es state).log.filterMap Event.grouped? =
      if (qualifying naming.namePrefix es).isEmpty then [] else [(groups naming es).length] := by
  rw [filterMap_log_quiet naming d es state Event.grouped? fun _ => rfl]
  simp [Event.grouped?, announcement]

theorem filterMap_writing? :
    (perform naming d.quiet es state).log.filterMap Event.writing? =
      (announcements naming d es state).map fun p => (p.1.target, p.2) := by
  rw [filterMap_log_quiet naming d es state Event.writing? fun _ => rfl]
  simp [Event.writing?, announcement]

theorem filterMap_completed? :
    (perform naming d.quiet es state).log.filterMap Event.completed? =
      ended naming es (perform naming d es state).outcome := by
  rw [filterMap_log_quiet naming d es state Event.completed? fun _ => rfl]
  simp [Event.completed?, announcement]

theorem mem_ended_iff {outcome : Except RoundError Summary} {builders failures : Nat} :
    (builders, failures) ∈ ended naming es outcome ↔ ∃ summary, outcome = .ok summary ∧
      qualifying naming.namePrefix es ≠ [] ∧
      builders = summary.written.length ∧ failures = summary.rejected.length := by
  cases outcome with
  | error e => simp [ended]
  | ok summary => by_cases h : qualifying naming.namePrefix es = [] <;> simp [ended, h]

theorem writing?_of_mem_opening {event : Event} (h : event ∈ opening naming es) :
    event.writing? = none := by
  rcases List.mem_append.mp h with h | h
  · rcases List.mem_pair.mp h with rfl | rfl
    · rfl
    · rfl
  · obtain ⟨r, -, rfl⟩ := List.mem_map.mp h
    rfl

/-- Behind its opening a round logs no errors. -/
theorem level_of_mem_rest {outcome : Except RoundError Summary} {units : List (SourceUnit × Nat)}
    {event : Event}
    (h : event ∈ grouping naming es ++ units.map announcement ++ closing naming es outcome) :
    event.level ≠ .error := by
  intro herror
  rw [grouping_eq, closing_eq, List.mem_append, List.mem_append, List.mem_append] at h
  rcases h with ((h | h) | h) | h
  · obtain ⟨r, -, rfl⟩ := List.mem_map.mp h
    exact Level.noConfusion herror
  · split at h
    · rw [List.mem_singleton.mp h] at herror
      exact Level.noConfusion herror
    · rw [List.mem_singleton.mp h] at herror
      exact Level.noConfusion herror
  · obtain ⟨p, -, rfl⟩ := List.mem_map.mp h
    exact Level.noConfusion herror
  · obtain ⟨p, -, rfl⟩ := List.mem_map.mp h
    exact Level.noConfusion herror

/-- **Only rejected elements are errors.** -/
theorem countP_error :
    (perform naming d.quiet es state).log.countP (fun event => event.level = .error) =
      (es.filter fun e => ¬ e.Qualifies naming.namePrefix).length := by
  have hopening : (opening naming es).countP (fun event => event.level = .error) =
      (sift naming.namePrefix es).rejected.length := by
    rw [opening, List.countP_append, List.countP_map]
    exact (Nat.zero_add _).trans (List.countP_eq_length.mpr fun r _ => rfl)
  have hrest : (grouping naming es ++ (announcements naming d es state).map announcement ++
      closing naming es (perform naming d es state).outcome).countP
        (fun event => event.level = .error) = 0 := by
    rw [List.countP_eq_zero]
    exact fun event hevent => by simpa using level_of_mem_rest hevent
  rw [log_quiet_eq_opening_append, List.countP_append, hrest, hopening, length_rejected,
    Nat.add_zero]

/-- In a round that succeeds, the methods that are announced are the members. -/
theorem map_snd_announcements {summary : Summary}
    (h : (perform naming d es state).outcome = .ok summary) :
    (announcements naming d es state).map Prod.snd =
      (groups naming es).map fun g => g.members.size := by
  obtain ⟨hrendered, hcalls⟩ := rendered_of_ok h
  refine List.map_snd_zip ?_
  rw [hcalls, List.length_map]
  exact Nat.le_of_eq hrendered.length_eq

/-- **Every setter is a member of a group or was replaced.** -/
theorem length_repeats_add_memberCount :
    (repeats [] (qualifying naming.namePrefix es)).length +
        SetterGroups.memberCount (groups naming es) =
      (qualifying naming.namePrefix es).length := by
  have hconserved := SetterGroups.length_replacements_add_memberCount
    SetterGroups.isIndexed_empty (sift naming.namePrefix es).accepted
  rw [replacements_accepted, length_accepted] at hconserved
  exact hconserved.trans (Nat.zero_add _)

/-- **A round's own log balances.** -/
theorem balanced_log_quiet :
    Balanced naming.namePrefix es (groups naming es) (calls naming d es state)
      (perform naming d es state).outcome (perform naming d.quiet es state).log where
  started := filterMap_started?
  sifted := filterMap_sifted?
  elements := by
    have hsplit := List.length_eq_length_filter_add (l := es) fun e =>
      decide (e.Qualifies naming.namePrefix)
    simpa [qualifying] using hsplit
  errors := countP_error
  errors_first := ⟨opening naming es, _, log_quiet_eq_opening_append naming d es state,
    fun _ => writing?_of_mem_opening, fun _ => level_of_mem_rest⟩
  announced := by
    rw [filterMap_writing?, List.map_map, ← map_fst_announcements naming d es state, List.map_map]
    rfl
  replaced := filterMap_replaced?
  members := by
    rw [filterMap_replaced?]
    exact length_repeats_add_memberCount
  completed_iff := by
    simp only [filterMap_completed?, mem_ended_iff]
    constructor
    · rintro ⟨_, _, summary, hsummary, hsetters, -, -⟩
      exact ⟨⟨summary, hsummary⟩, hsetters⟩
    · rintro ⟨⟨summary, hsummary⟩, hsetters⟩
      exact ⟨_, _, summary, hsummary, hsetters, rfl, rfl⟩
  completed := by
    intro builders failures hended
    rw [filterMap_completed?, mem_ended_iff] at hended
    obtain ⟨summary, hsummary, hsetters, rfl, rfl⟩ := hended
    obtain ⟨hrendered, hcalls⟩ := rendered_of_ok hsummary
    have hgroups : (groups naming es).length = summary.written.length := hrendered.length_eq
    refine ⟨?_, hgroups, ?_, ?_, summary, hsummary, rfl⟩
    · rw [(writeGroups_of_ok hsummary).2, length_rejected]
    · rw [filterMap_grouped?, hgroups]
      simp [hsetters]
    · rw [filterMap_writing?, List.length_map, ← hcalls, ← map_fst_announcements, List.length_map]
  methods := by
    intro builders failures hended
    rw [filterMap_completed?, mem_ended_iff] at hended
    obtain ⟨summary, hsummary, -, -, -⟩ := hended
    have hsizes : (announcements naming d es state).map Prod.snd = _ :=
      map_snd_announcements hsummary
    rw [filterMap_writing?, filterMap_replaced?, List.map_map, Nat.add_comm]
    show _ + ((announcements naming d es state).map Prod.snd).sum = _
    rw [hsizes]
    exact length_repeats_add_memberCount

/-- With a destination that logs only written files, a round's own log is all but these. -/
theorem filter_isWritten_log (hlog : ∀ state unit, ∀ event ∈ (d state unit).log,
    event.isWritten = true) :
    (perform naming d es state).log.filter (fun event => !event.isWritten) =
      (perform naming d.quiet es state).log := by
  have hannounced : ∀ units state, (d.announced state units).filter (fun event =>
      !event.isWritten) = units.map announcement := by
    intro units
    induction units with
    | nil => exact fun _ => rfl
    | cons p rest ih =>
      intro state
      have hnone : (d state p.1).log.filter (fun event => !event.isWritten) = [] := by
        rw [List.filter_eq_nil_iff]
        exact fun event hevent => by simp [hlog state p.1 event hevent]
      show ((announcement p :: (d state p.1).log) ++ d.announced (d state p.1).state rest).filter
        _ = _
      rw [List.cons_append, List.filter_cons_of_pos rfl, List.filter_append, hnone, ih]
      rfl
  have hopening : (opening naming es).filter (fun event => !event.isWritten) =
      opening naming es := by
    simp [opening, Event.isWritten, Sifted.event, List.filter_map, Function.comp_def]
  have hgrouping : (grouping naming es).filter (fun event => !event.isWritten) =
      grouping naming es := by
    rw [grouping_eq]
    split <;> simp [Event.isWritten, List.filter_map, Function.comp_def]
  have hclosing : ∀ outcome, (closing naming es outcome).filter (fun event => !event.isWritten) =
      closing naming es outcome := by
    intro outcome
    simp [closing_eq, Event.isWritten, List.filter_map, Function.comp_def]
  rw [log_eq_announced, log_quiet, List.filter_append, List.filter_append, List.filter_append,
    hopening, hgrouping, hannounced, hclosing]

/-- **The log of a round balances.**  Whatever a destination answers, a round logs events
of its own that balance, all else in its log is from the destination, and with a
destination that logs at most the files it writes the whole log balances. -/
theorem balanced_log (naming : Naming) (d : Destination σ) (es : List Element) (state : σ) :
    let round := perform naming d es state
    let own := (perform naming d.quiet es state).log
    own.Sublist round.log ∧
    round.log.Perm (own ++ d.logged state (calls naming d es state)) ∧
    Balanced naming.namePrefix es (groups naming es) (calls naming d es state) round.outcome own ∧
    ((∀ state unit, ∀ event ∈ (d state unit).log, event.isWritten = true) →
      Balanced naming.namePrefix es (groups naming es) (calls naming d es state) round.outcome
        round.log) := by
  intro round own
  refine ⟨sublist_log naming d es state, perm_log naming d es state, balanced_log_quiet,
    fun hlog => ?_⟩
  refine balanced_filter_isWritten ?_
  rw [filter_isWritten_log hlog]
  exact balanced_log_quiet

end

/-- A host that refuses the second builder: a setter is replaced, an element is rejected, and
all are accounted for. -/
theorem balanced_log_second_refused :
    let d := Host.destination (Host.refusesOnly 2)
    let es : List Element :=
      [⟨"a.One", "setX", ["int"], none⟩, ⟨"Two", "setX", ["int"], none⟩, ⟨"a.", "getX", [], none⟩,
        ⟨"a.One", "setX", ["long"], none⟩]
    let round := perform .standard d es .initial
    (∀ state unit, ∀ event ∈ (d state unit).log, event.isWritten = true) ∧
      Balanced "set" es (groups .standard es) (calls .standard d es .initial) round.outcome
        round.log ∧
      round.log.countP (fun event => event.level = .error) = 1 ∧
      round.log.filterMap Event.replaced? = [⟨"a.One", "setX", "int", "long"⟩] := by
  intro d es round
  have hwritten := Host.isWritten_of_mem_log (Host.refusesOnly 2)
  obtain ⟨-, -, -, hbalanced⟩ := balanced_log .standard d es .initial
  have h := hbalanced hwritten
  exact ⟨hwritten, h, h.errors, h.replaced⟩

end Round
end FluentBuilders

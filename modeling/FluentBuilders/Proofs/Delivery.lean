import Mathlib.Data.List.Forall2
import Mathlib.Data.List.Induction
import Mathlib.Data.List.TakeWhile
import FluentBuilders.Round
import FluentBuilders.Store

/-! # Giving units to a destination

What a destination is given, one unit after the other, and what it makes of it.
A destination can be made to keep a record of the units (`Destination.recording`)
without any other change to what becomes of them (`writeGroups_recording`), so the
record tells what was written.  The record of the builders of a list of groups ends
in one of three ways (`Course`): with the last group, in front of the first owner
that is not well formed, or with the first unit that is refused.
-/
namespace FluentBuilders

namespace Destination

variable {σ : Type} (d : Destination σ)

/-- The state once some units were given, whatever the answers. -/
def after : σ → List SourceUnit → σ
  | state, [] => state
  | state, unit :: rest => after (d state unit).state rest

/-- All of some units are taken when they are given in order. -/
def TakesAll : σ → List SourceUnit → Prop
  | _, [] => True
  | state, unit :: rest => (d state unit).outcome = .ok () ∧ TakesAll (d state unit).state rest

/-- Every unit is taken, whatever was given before it. -/
def Accepts (state : σ) : Prop :=
  ∀ earlier unit, (d (d.after state earlier) unit).outcome = .ok ()

/-- Those of some units that are taken when all of them are given in order. -/
def taken : σ → List SourceUnit → List SourceUnit
  | _, [] => []
  | state, unit :: rest =>
    match (d state unit).outcome with
    | .ok () => unit :: taken (d state unit).state rest
    | .error _ => taken (d state unit).state rest

/-- What is logged while units are given in order, each announced with the number
of its methods. -/
def announced : σ → List (SourceUnit × Nat) → List Event
  | _, [] => []
  | state, (unit, methods) :: rest =>
    .writing unit.target methods :: (d state unit).log ++ announced (d state unit).state rest

/-- What is taken is passed on to a store, and the store is left alone otherwise. -/
def KeptIn (store : σ → Store) : Prop :=
  ∀ state unit, store (d state unit).state =
    match (d state unit).outcome with
    | .ok () => (store state).write unit
    | .error _ => store state

/-- The same destination with a record of the units it was given. -/
def recording : Destination (σ × List SourceUnit) := fun s unit =>
  let answer := d s.1 unit
  ⟨(answer.state, s.2 ++ [unit]), answer.log, answer.outcome⟩

theorem recording_apply (state : σ) (record : List SourceUnit) (unit : SourceUnit) :
    d.recording (state, record) unit =
      ⟨((d state unit).state, record ++ [unit]), (d state unit).log, (d state unit).outcome⟩ :=
  rfl

theorem after_append (state : σ) (xs ys : List SourceUnit) :
    d.after state (xs ++ ys) = d.after (d.after state xs) ys := by
  induction xs generalizing state with
  | nil => rfl
  | cons x xs ih => exact ih _

theorem takesAll_append (state : σ) (xs ys : List SourceUnit) :
    d.TakesAll state (xs ++ ys) ↔ d.TakesAll state xs ∧ d.TakesAll (d.after state xs) ys := by
  induction xs generalizing state with
  | nil => exact ⟨fun h => ⟨trivial, h⟩, fun h => h.2⟩
  | cons x xs ih =>
    rw [List.cons_append, TakesAll, TakesAll, ih, and_assoc]
    rfl

/-- A destination that takes everything takes all of some units. -/
theorem takesAll_of_accepts {d : Destination σ} {state : σ} (h : d.Accepts state)
    (units : List SourceUnit) : d.TakesAll state units := by
  induction units using List.reverseRecOn with
  | nil => trivial
  | append_singleton units unit ih =>
    exact (d.takesAll_append state units [unit]).mpr ⟨ih, h units unit, trivial⟩

/-- When all units are taken, those that are taken are all of them. -/
theorem taken_of_takesAll {d : Destination σ} {state : σ} {units : List SourceUnit}
    (h : d.TakesAll state units) : d.taken state units = units := by
  induction units generalizing state with
  | nil => rfl
  | cons unit rest ih =>
    rw [taken, h.1]
    exact congrArg (unit :: ·) (ih h.2)

/-- **A store behind a destination** holds afterwards what it held, updated by the
units that were taken. -/
theorem store_after {d : Destination σ} {store : σ → Store} (h : d.KeptIn store) (state : σ)
    (units : List SourceUnit) :
    store (d.after state units) = (d.taken state units).foldl Store.write (store state) := by
  induction units generalizing state with
  | nil => rfl
  | cons unit rest ih =>
    have hstep := h state unit
    rw [after, ih, taken]
    cases ho : (d state unit).outcome with
    | ok _ =>
      rw [ho] at hstep
      rw [hstep]
      rfl
    | error cause =>
      rw [ho] at hstep
      rw [hstep]

end Destination

/-! ## The builders of groups -/

namespace DottedName

/-- Whether the name of an owner is well formed. -/
def isOwner (owner : String) : Bool := (ofOwner owner).isOk

theorem isOwner_iff {owner : String} :
    isOwner owner = true ↔ ∃ name, ofOwner owner = .ok name := by
  unfold isOwner
  cases ofOwner owner with
  | ok name => exact ⟨fun _ => ⟨name, rfl⟩, fun _ => rfl⟩
  | error e => exact ⟨fun h => Bool.noConfusion h, fun ⟨_, h⟩ => by simp at h⟩

theorem isOwner_of_error {owner : String} {e : OwnerError} (h : ofOwner owner = .error e) :
    isOwner owner = false := by
  rw [isOwner, h]
  rfl

end DottedName

/-- Units that are the builders of some groups, in order. -/
def Rendered (suffix : String) (groups : List SetterGroup) (units : List SourceUnit) : Prop :=
  List.Forall₂ (fun g unit => BuilderClass.render g.owner g.members suffix = .ok unit) groups units

theorem Rendered.targets {suffix : String} {groups : List SetterGroup} {units : List SourceUnit}
    (h : Rendered suffix groups units) :
    units.map SourceUnit.target = groups.map fun g => g.owner ++ suffix := by
  induction h with
  | nil => rfl
  | cons hunit _ ih => rw [List.map_cons, List.map_cons, ih, BuilderClass.target_of_render hunit]

/-- A group that has a builder has a well-formed owner. -/
theorem Rendered.owner_ok {suffix : String} {groups : List SetterGroup}
    {units : List SourceUnit} (h : Rendered suffix groups units) :
    ∀ g ∈ groups, ∃ name, DottedName.ofOwner g.owner = .ok name := by
  induction h with
  | nil => simp
  | @cons g unit gs units hunit _ ih =>
    intro g' hg'
    rcases List.mem_cons.mp hg' with rfl | hg'
    · cases ho : DottedName.ofOwner g'.owner with
      | ok name => exact ⟨name, rfl⟩
      | error e =>
        rw [BuilderClass.render_eq_error_iff.mpr ho] at hunit
        simp at hunit
    · exact ih g' hg'

/-- The builders of some groups are what rendering makes of them, in any order. -/
theorem Rendered.mem_iff {suffix : String} {groups : List SetterGroup}
    {units : List SourceUnit} (h : Rendered suffix groups units) (unit : SourceUnit) :
    unit ∈ units ↔ ∃ g ∈ groups, BuilderClass.render g.owner g.members suffix = .ok unit := by
  induction h with
  | nil => simp
  | @cons g u gs us hunit _ ih =>
    rw [List.mem_cons, List.exists_mem_cons_iff, ih, hunit, Except.ok.injEq, eq_comm]

/-- Groups have their builders in one way only. -/
theorem Rendered.unique {suffix : String} {groups : List SetterGroup}
    {units units' : List SourceUnit} (h : Rendered suffix groups units)
    (h' : Rendered suffix groups units') : units = units' := by
  induction h generalizing units' with
  | nil =>
    cases h' with
    | nil => rfl
  | cons hunit _ ih =>
    cases h' with
    | cons hunit' hrest' =>
      rw [ih hrest', Except.ok.inj (hunit.symm.trans hunit')]

/-- The fault of an owner is reported with its name. -/
theorem owner_of_ofOwner {owner : String} {e : OwnerError}
    (h : DottedName.ofOwner owner = .error e) : e = ⟨owner, e.fault⟩ := by
  unfold DottedName.ofOwner at h
  split at h
  · injection h with h
    rw [← h]
  · split at h
    · injection h with h
      rw [← h]
    · simp at h

section

variable {σ : Type} (d : Destination σ) (suffix : String)

/-- How the writing of the builders of some groups ends, once some units were
given. -/
inductive Course (state : σ) (groups : List SetterGroup) (given : List SourceUnit) :
    Except RoundError (List SourceUnit) → Prop where
  /-- Every group has its builder written. -/
  | completed (rendered : Rendered suffix groups given) (taken : d.TakesAll state given) :
      Course state groups given (.ok given)
  /-- All is well up to a group whose owner is not well formed. -/
  | malformed {front back : List SetterGroup} {g : SetterGroup} {fault : NameFault}
      (split : groups = front ++ g :: back) (rendered : Rendered suffix front given)
      (taken : d.TakesAll state given)
      (owner : DottedName.ofOwner g.owner = .error ⟨g.owner, fault⟩) :
      Course state groups given (.error (.owner ⟨g.owner, fault⟩))
  /-- All is well up to a builder that is refused. -/
  | refused {front back : List SetterGroup} {g : SetterGroup} {earlier : List SourceUnit}
      {unit : SourceUnit} {cause : FileError}
      (split : groups = front ++ g :: back) (last : given = earlier ++ [unit])
      (rendered : Rendered suffix front earlier)
      (builder : BuilderClass.render g.owner g.members suffix = .ok unit)
      (taken : d.TakesAll state earlier)
      (refusal : (d (d.after state earlier) unit).outcome = .error cause) :
      Course state groups given (.error (.unwritten (g.owner ++ suffix) cause))

/-- The units that are given while the builders of some groups are written. -/
def given : List SetterGroup → σ → List SourceUnit
  | [], _ => []
  | g :: gs, state =>
    match BuilderClass.render g.owner g.members suffix with
    | .error _ => []
    | .ok unit =>
      match (d state unit).outcome with
      | .error _ => [unit]
      | .ok () => unit :: given gs (d state unit).state

/-- At most one unit is given for each group. -/
theorem length_given_le (groups : List SetterGroup) (state : σ) :
    (given d suffix groups state).length ≤ groups.length := by
  induction groups generalizing state with
  | nil => exact Nat.le_refl 0
  | cons g gs ih =>
    rw [given]
    cases BuilderClass.render g.owner g.members suffix with
    | error e => exact Nat.zero_le _
    | ok unit =>
      dsimp only
      cases (d state unit).outcome with
      | error cause => exact Nat.succ_le_succ (Nat.zero_le _)
      | ok _ => exact Nat.succ_le_succ (ih _)

theorem state_writeGroups (groups : List SetterGroup) (state : σ) :
    (writeGroups d suffix groups state).state = d.after state (given d suffix groups state) := by
  induction groups generalizing state with
  | nil => rfl
  | cons g gs ih =>
    rw [writeGroups, given]
    cases BuilderClass.render g.owner g.members suffix with
    | error e => rfl
    | ok unit =>
      dsimp only
      cases (d state unit).outcome with
      | error cause => rfl
      | ok _ => exact ih _

theorem log_writeGroups (groups : List SetterGroup) (state : σ) :
    (writeGroups d suffix groups state).log =
      d.announced state
        ((given d suffix groups state).zip (groups.map fun g => g.members.size)) := by
  induction groups generalizing state with
  | nil => rfl
  | cons g gs ih =>
    rw [writeGroups, given]
    cases BuilderClass.render g.owner g.members suffix with
    | error e => rfl
    | ok unit =>
      dsimp only
      cases (d state unit).outcome with
      | error cause => simp [Destination.announced]
      | ok _ => simp [Destination.announced, ih]

/-- **Keeping a record changes nothing else.** -/
theorem writeGroups_recording (groups : List SetterGroup) (state : σ)
    (record : List SourceUnit) :
    writeGroups d.recording suffix groups (state, record) =
      ⟨((writeGroups d suffix groups state).state, record ++ given d suffix groups state),
        (writeGroups d suffix groups state).log,
        (writeGroups d suffix groups state).outcome⟩ := by
  induction groups generalizing state record with
  | nil => simp [writeGroups, given]
  | cons g gs ih =>
    rw [writeGroups, writeGroups, given]
    cases BuilderClass.render g.owner g.members suffix with
    | error e => simp
    | ok unit =>
      dsimp only
      rw [Destination.recording_apply]
      dsimp only
      cases (d state unit).outcome with
      | error cause => rfl
      | ok _ =>
        dsimp only
        rw [ih, List.append_assoc]
        rfl

/-- **The course of writing**, by the three ways in which a group can go. -/
theorem course_writeGroups (groups : List SetterGroup) (state : σ) :
    Course d suffix state groups (given d suffix groups state)
      (writeGroups d suffix groups state).outcome := by
  induction groups generalizing state with
  | nil => exact .completed List.Forall₂.nil trivial
  | cons g gs ih =>
    rw [writeGroups, given]
    cases hr : BuilderClass.render g.owner g.members suffix with
    | error e =>
      have ho := BuilderClass.render_eq_error_iff.mp hr
      obtain ⟨fault, rfl⟩ : ∃ fault, e = ⟨g.owner, fault⟩ := ⟨e.fault, owner_of_ofOwner ho⟩
      exact .malformed (List.nil_append _).symm List.Forall₂.nil trivial ho
    | ok unit =>
      dsimp only
      cases ha : (d state unit).outcome with
      | error cause =>
        rw [BuilderClass.target_of_render hr]
        exact .refused (List.nil_append _).symm (List.nil_append _).symm List.Forall₂.nil hr
          trivial ha
      | ok _ =>
        -- the group just written goes in front of whatever came of the others
        have hrest := ih (d state unit).state
        dsimp only
        generalize (writeGroups d suffix gs (d state unit).state).outcome = outcome at hrest ⊢
        cases hrest with
        | completed rendered taken => exact .completed (.cons hr rendered) ⟨ha, taken⟩
        | malformed split rendered taken owner =>
          exact .malformed (congrArg (g :: ·) split) (.cons hr rendered) ⟨ha, taken⟩ owner
        | refused split last rendered builder taken refusal =>
          exact .refused (congrArg (g :: ·) split) (congrArg (unit :: ·) last)
            (.cons hr rendered) builder ⟨ha, taken⟩ refusal

/-- A course on which nothing is refused ends with the last group, or in front of an owner
that is not well formed. -/
theorem Course.of_takesAll {d : Destination σ} {suffix : String} {state : σ}
    {groups : List SetterGroup} {units : List SourceUnit}
    {outcome : Except RoundError (List SourceUnit)}
    (h : Course d suffix state groups units outcome) (htaken : d.TakesAll state units) :
    (Rendered suffix groups units ∧ outcome = .ok units) ∨
      ∃ front g back fault, groups = front ++ g :: back ∧ Rendered suffix front units ∧
        DottedName.ofOwner g.owner = .error ⟨g.owner, fault⟩ ∧
        outcome = .error (.owner ⟨g.owner, fault⟩) := by
  cases h with
  | completed rendered taken => exact .inl ⟨rendered, rfl⟩
  | malformed split rendered taken owner => exact .inr ⟨_, _, _, _, split, rendered, owner, rfl⟩
  | refused split last rendered builder taken refusal =>
    -- the last unit was taken as well
    rw [last, d.takesAll_append] at htaken
    have hlast := htaken.2.1
    rw [refusal] at hlast
    simp at hlast

/-- **What is given when nothing is refused**: the builders of the groups in front of the
first one whose owner is not well formed. -/
theorem rendered_given {groups : List SetterGroup} {state : σ}
    (h : d.TakesAll state (given d suffix groups state)) :
    Rendered suffix (groups.takeWhile fun g => DottedName.isOwner g.owner)
      (given d suffix groups state) := by
  have howner : ∀ {front units}, Rendered suffix front units →
      ∀ g ∈ front, DottedName.isOwner g.owner = true := fun hfront g hg =>
    DottedName.isOwner_iff.mpr (hfront.owner_ok g hg)
  rcases (course_writeGroups d suffix groups state).of_takesAll h with
    ⟨hrendered, -⟩ | ⟨front, g, back, fault, hsplit, hrendered, herror, -⟩
  · rw [List.takeWhile_eq_self_iff.mpr (howner hrendered)]
    exact hrendered
  · generalize given d suffix groups state = units at hrendered ⊢
    rw [hsplit, List.takeWhile_append_of_pos (howner hrendered),
      List.takeWhile_cons_of_neg (by simp [DottedName.isOwner_of_error herror]), List.append_nil]
    exact hrendered

end
end FluentBuilders
